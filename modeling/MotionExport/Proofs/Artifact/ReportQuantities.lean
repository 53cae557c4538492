import MotionExport.Proofs.Artifact.ReportSections
import MotionExport.Proofs.Conversion.Extraction
import MotionExport.Proofs.Number.ReadBack

/-! # Quantities of a report

The parameters, the states and the integration options of a report are read back as they were. There
is no blank in a name, and no comma in a number, so that an entry is cut where it was put together.
-/

namespace MotionExport

namespace Quantity

open NumberStyle

variable {q : Quantity}

theorem isWord_write_plain (x : Binary64) : (plain.write x).IsWord := by
  constructor
  · intro hnil
    have hread := x.parse?_write_plain
    rw [hnil] at hread
    contradiction
  · intro c hc
    rcases Binary64.mem_write_plain hc with hdigit | hmark
    · refine Token.isBlank_of_continuesIdentifier ?_
      simp [Token.continuesIdentifier, Char.isAlphanum, hdigit]
    · have hmarks : Text.IsWord ".e+-NaNinf".toList := by decide
      exact hmarks.2 c hmark

theorem comma_not_mem_write_plain (x : Binary64) : ',' ∉ plain.write x := by
  intro hmem
  rcases Binary64.mem_write_plain hmem with h | h <;> exact absurd h (by decide)

theorem splitOnce_rest (x : Binary64) (units : Text) :
    Text.splitOnce ", ".toList (plain.write x ++ (", ".toList ++ units)) =
        some (plain.write x, units) ∧
      Text.splitOnce ", ".toList (plain.write x) = none := by
  refine ⟨?_, Text.splitOnce_eq_none (comma_not_mem_write_plain x) [' ']⟩
  rw [← List.append_assoc]
  exact Text.splitOnce_append (comma_not_mem_write_plain x) [' '] units

theorem InWords.parse_toText (h : q.InWords) : parse q.toText = .ok q := by
  obtain ⟨name, x, units⟩ := q
  have hread : Binary64.parse? (plain.write x).trim = some x := by
    rw [(isWord_write_plain x).trim, x.parse?_write_plain]
  have hsplit (rest : Text) :
      Text.splitOnce " = ".toList (name ++ " = ".toList ++ rest) = some (name, rest) :=
    Text.splitOnce_append (h.name.not_mem (by decide)) ['=', ' '] rest
  have hname : name.trim = name := h.name.trim
  cases units with
  | none =>
    obtain ⟨-, hcut⟩ := splitOnce_rest x []
    simp only [toText, parse, List.append_nil, hsplit, hcut, hread, hname]
  | some units =>
    obtain ⟨hcut, -⟩ := splitOnce_rest x units
    simp only [toText, parse, List.append_assoc _ (plain.write x), hsplit, hcut, hread, hname]

theorem InWords.exists_toText_eq (h : q.InWords) :
    ∃ middle last, q.toText = q.name ++ middle ++ last ∧ '\n' ∉ middle ∧ last.IsWord := by
  obtain ⟨name, x, units⟩ := q
  have hvalue := isWord_write_plain x
  cases units with
  | none => exact ⟨" = ".toList, plain.write x, by simp [toText], by decide, hvalue⟩
  | some units =>
    refine ⟨" = ".toList ++ plain.write x ++ ", ".toList, units, by simp [toText], ?_,
      h.units units rfl⟩
    simp only [List.mem_append, not_or]
    exact ⟨⟨by decide, hvalue.not_mem (by decide)⟩, by decide⟩

theorem InWords.trim_toText (h : q.InWords) : q.toText.trim = q.toText := by
  obtain ⟨middle, last, htext, -, hlast⟩ := h.exists_toText_eq
  rw [htext]
  exact h.name.trim_append hlast middle

theorem InWords.isEntryLine (h : q.InWords) (hname : q.name.startsWith ['['] = false) :
    Report.IsEntryLine q.toText := by
  have htrim := h.trim_toText
  obtain ⟨middle, last, htext, hmiddle, hlast⟩ := h.exists_toText_eq
  obtain ⟨a, name, hcons⟩ := List.exists_cons_of_ne_nil h.name.1
  refine ⟨?_, ?_, ?_⟩
  · rw [htext]
    simp only [List.mem_append, not_or]
    exact ⟨⟨h.name.not_mem (by decide), hmiddle⟩, hlast.not_mem (by decide)⟩
  · rw [htrim, htext, hcons]
    exact List.cons_ne_nil _ _
  · rintro ⟨hstart, -⟩
    rw [htrim, htext, hcons] at hstart
    rw [hcons] at hname
    exact Bool.false_ne_true (hname.symm.trans hstart)

end Quantity

theorem Report.isEntryLine_of_isClassName {name : Text} (h : Conversion.isClassName name = true) :
    IsEntryLine name := by
  have hword := Conversion.isWord_of_isClassName h
  have hbracket : '[' ∉ name := fun hmem =>
    absurd (Conversion.continuesIdentifier_of_isClassName h '[' hmem) (by decide)
  refine ⟨hword.not_mem (by decide), ?_, ?_⟩
  · rw [hword.trim]
    exact hword.1
  · rintro ⟨hstart, -⟩
    rw [hword.trim] at hstart
    exact hbracket ((List.isPrefixOf_iff_prefix.mp hstart).subset List.mem_cons_self)

namespace Document

open Report

variable {d : Document} {tree : FileTree} {c : Conversion}

theorem entries_of_lines? {s : ReportSection} {quantities : List Quantity}
    (hlines : (ofText d.report).lines? s.title =
      some ((quantities.map Quantity.toText).map Text.trim))
    (h : ∀ q ∈ quantities, q.InWords) : (ofText d.report).entries s.title = .ok quantities := by
  rw [entries, hlines, Option.getD_some, List.map_map]
  apply mapM_map_of_forall
  intro q hq
  rw [Function.comp_apply, (h q hq).trim_toText]
  exact (h q hq).parse_toText

theorem isWord_key (option : IntegrationOption) :
    option.key.IsWord ∧ option.key.startsWith ['['] = false := by
  cases option <;> exact ⟨by decide, by decide⟩

def integrationQuantities (d : Document) : List Quantity :=
  IntegrationOption.all.map fun option => ⟨option.key, d.integration.value option, none⟩

theorem reportLines_integration (d : Document) :
    d.reportLines .integration = d.integrationQuantities.map Quantity.toText := by
  rw [integrationQuantities, List.map_map]
  rfl

theorem inWords_integrationQuantities {q : Quantity} (hq : q ∈ d.integrationQuantities) :
    q.InWords ∧ q.name.startsWith ['['] = false := by
  obtain ⟨option, -, rfl⟩ := List.mem_map.mp hq
  obtain ⟨hword, hbracket⟩ := isWord_key option
  exact ⟨⟨hword, fun _ h => nomatch h⟩, hbracket⟩

def leadingSections : List ReportSection := [.name, .integration, .parameters, .states]

/-- No line in front of the equations is taken for something else. -/
theorem isEntryLine_of_extract (h : tree.extract c = .ok d)
    (hnames : ∀ q ∈ d.parameters ++ d.states, q.name.startsWith ['['] = false) :
    ∀ s ∈ leadingSections, ∀ l ∈ d.reportLines s, IsEntryLine l := by
  have hquantities {quantities : List Quantity}
      (hq : ∀ q ∈ quantities, q.InWords ∧ q.name.startsWith ['['] = false) :
      ∀ l ∈ quantities.map Quantity.toText, IsEntryLine l := by
    intro l hl
    obtain ⟨q, hmem, rfl⟩ := List.mem_map.mp hl
    exact (hq q hmem).1.isEntryLine (hq q hmem).2
  have hwords := Conversion.inWords_of_extract h
  rw [leadingSections, List.forall_mem_cons, List.forall_mem_cons, List.forall_mem_cons,
    List.forall_mem_singleton]
  refine ⟨?_, ?_, ?_, ?_⟩
  · refine List.forall_mem_singleton.mpr (isEntryLine_of_isClassName ?_)
    rw [Conversion.name_of_extract h]
    exact (Conversion.extract_eq_ok_iff.mp h).1
  · rw [reportLines_integration]
    exact hquantities fun _ => inWords_integrationQuantities
  · apply hquantities
    intro q hq
    exact ⟨hwords q (List.mem_append_left _ hq), hnames q (List.mem_append_left _ hq)⟩
  · apply hquantities
    intro q hq
    exact ⟨hwords q (List.mem_append_right _ hq), hnames q (List.mem_append_right _ hq)⟩

/-- The report `r` keeps the quantities of a document. -/
structure QuantitiesKeptIn (d : Document) (r : Report) : Prop where
  parameters : r.entries ReportSection.parameters.title = .ok d.parameters
  states : r.entries ReportSection.states.title = .ok d.states
  initialValues : r.states = .ok (d.states.map fun q => (q.name, q.value))
  integration : r.entries ReportSection.integration.title = .ok d.integrationQuantities

/-- The quantities of an export are read back from its report, unless a name opens a bracket as a
header does. -/
theorem quantitiesKeptIn_report (h : tree.extract c = .ok d)
    (hnames : ∀ q ∈ d.parameters ++ d.states, q.name.startsWith ['['] = false) :
    d.QuantitiesKeptIn (ofText d.report) := by
  obtain ⟨hparameters, hstates⟩ := List.forall_mem_append.mp (Conversion.inWords_of_extract h)
  have hlines {s : ReportSection} (hs : s ∈ leadingSections) :
      (ofText d.report).lines? s.title = some ((d.reportLines s).map Text.trim) :=
    lines?_of_leading (by decide : leadingSections ++ [.constants] <+: ReportSection.all)
      (isEntryLine_of_extract h hnames) hs
  have hentries : (ofText d.report).entries ReportSection.states.title = .ok d.states :=
    entries_of_lines? (hlines (by decide)) hstates
  refine ⟨entries_of_lines? (hlines (by decide)) hparameters, hentries, ?_, ?_⟩
  · rw [Report.states, hentries]
    rfl
  · refine entries_of_lines? ?_ fun q hq => (inWords_integrationQuantities hq).1
    rw [← reportLines_integration]
    exact hlines (by decide)

end Document

/-- A parameter file whose names and units hold the signs that an entry is cut at, and an equations
file whose constant looks like a header in the report. -/
def swingTree : FileTree where
  entries := [
    (["Swing.in".toList], .file <| List.replicate 6 '\n' ++ ([
        "Constant a=b, m/s^2 = 9.81", "Constant k [N/m] = 2",
        "Initial Value theta rad,= = 0.5", "Initial Value omega UNITS = NaN",
        "Initial Time TINITIAL s = 0.0", "Final Time TFINAL s = 10.0",
        "Integration Step INTEGSTP s = 0.01", "Absolute Error ABSERR = 1.0E-08",
        "Relative Error RELERR = 1.0E-07"].map String.toList).flatMap (· ++ ['\n'])),
    (["Swing.c".toList], .file <| List.replicate 20 '\n' ++ ([
        "double z[3];", "/* 0 MAIN 0 */", "/* Evaluate constants */", "[States = 1];", "",
        "/* Update variables after integration step */", "", "thetap = omega;",
        "/* Update derivative array prior to integration step */",
        "/* Write output to screen and to output file(s) */", "",
        "/* Evaluate output quantities */"].map String.toList).flatMap (· ++ ['\n']))]

def swingConversion : Conversion := { base := "Swing".toList, className := "Swing".toList }

theorem swingTree_quantitiesKeptIn_report : ∃ d, swingTree.extract swingConversion = .ok d ∧
    (∀ q ∈ d.parameters ++ d.states, q.name.startsWith ['['] = false) ∧
    d.QuantitiesKeptIn (Report.ofText d.report) := by
  have hrun : (swingTree.extract swingConversion).map (fun d =>
      (d.parameters ++ d.states).all fun q => q.name.startsWith ['['] == false) = .ok true := by
    decide +kernel
  cases h : swingTree.extract swingConversion with
  | error e =>
    rw [h] at hrun
    contradiction
  | ok d =>
    rw [h] at hrun
    have hnames : ∀ q ∈ d.parameters ++ d.states, q.name.startsWith ['['] = false := by
      simpa only [List.all_eq_true, beq_iff_eq] using Except.ok.inj hrun
    exact ⟨d, rfl, hnames, Document.quantitiesKeptIn_report h hnames⟩

end MotionExport
