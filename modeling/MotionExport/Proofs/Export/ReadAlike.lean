import Mathlib.Data.List.Forall2
import MotionExport.Proofs.Export.LogParts
import MotionExport.Proofs.Export.StatementRange

/-! # Lines that read alike

Two files are read alike if they have the same lines up to blanks at their ends, and the same
statements on lines of their own. What is recorded of them differs in the numbers of the lines only.
-/

namespace MotionExport

/-- The same cause at lines whose numbers are taken for the same. -/
inductive ExportError.Corresponds (same : Nat → Nat → Prop) : ExportError → ExportError → Prop where

  | refl (e : ExportError) : Corresponds same e e

  | unfinishedStatement {n n' : Nat} (h : same n n') :
    Corresponds same (.unfinishedStatement n) (.unfinishedStatement n')

  | malformedLine {n n' : Nat} (h : same n n') (fault : LineFault) :
    Corresponds same (.malformedLine n fault) (.malformedLine n' fault)

def ExportError.SameButLine (e e' : ExportError) : Prop := e.Corresponds (fun _ _ => True) e'

structure LoggedStatement.Corresponds (same : Nat → Nat → Prop) (e e' : LoggedStatement) :
    Prop where
  origin : e.origin = e'.origin
  statement : e.statement = e'.statement
  line : same e.line e'.line

def SameRecords (same : Nat → Nat → Prop) : List LoggedStatement → List LoggedStatement → Prop :=
  List.Forall₂ (LoggedStatement.Corresponds same)

structure StatementLog.Corresponds (same : Nat → Nat → Prop) (log log' : StatementLog) : Prop where
  globals : log.globals = log'.globals
  outputNames : log.outputNames = log'.outputNames
  statements : SameRecords same log.statements log'.statements

/-- The logs differ in the numbers of lines only. -/
def StatementLog.SameButLines (log log' : StatementLog) : Prop :=
  log.Corresponds (fun _ _ => True) log'

def Marker.comments : List Marker :=
  [.constants, .afterStep, .beforeStep, .toBeSpecified, .wereSpecified, .writeOutput,
    .evaluateOutput]

theorem Marker.mem_comments {m : Marker} (hm : m ≠ .main) : m ∈ comments := by
  cases m with
  | main => contradiction
  | _ => decide

/-- A line that is neither blank nor a marker of a section. -/
def IsPlain (line : Text) : Prop := line ≠ [] ∧ ∀ m ∈ Marker.comments, m.isOn line = false

instance : DecidablePred IsPlain := fun _ => inferInstanceAs (Decidable (_ ∧ _))

/-- Two ranges of plain lines hold the same statement, and are told from write statements alike. -/
structure StatementRange.Rewraps (same : Nat → Nat → Prop) (r r' : StatementRange) : Prop where
  number : same r.first.number r'.first.number
  text : r.text = r'.text
  plain : ∀ l ∈ r.lines, IsPlain l.trimmed
  plain' : ∀ l ∈ r'.lines, IsPlain l.trimmed
  writes : r.first.trimmed.startsWith EquationFile.writing =
    r'.first.trimmed.startsWith EquationFile.writing
  writesOutputs : r.first.trimmed.startsWith EquationFile.writingOutputs =
    r'.first.trimmed.startsWith EquationFile.writingOutputs

structure Line.Corresponds (same : Nat → Nat → Prop) (l l' : Line) : Prop where
  number : same l.number l'.number
  trimmed : l.trimmed = l'.trimmed

/-- The lines are the same up to blanks at their ends, but for statements on lines of their own. -/
inductive ReadAlike (same : Nat → Nat → Prop) : List Line → List Line → Prop where

  | nil : ReadAlike same [] []

  | line {l l' : Line} {ls ls' : List Line} (h : l.Corresponds same l')
    (rest : ReadAlike same ls ls') : ReadAlike same (l :: ls) (l' :: ls')

  | statement {r r' : StatementRange} {ls ls' : List Line} (h : r.Rewraps same r')
    (rest : ReadAlike same ls ls') : ReadAlike same (r.lines ++ ls) (r'.lines ++ ls')

variable {same : Nat → Nat → Prop} {lines lines' rest rest' : List Line} {line line' : Line}

theorem SameRecords.append {s s' t t' : List LoggedStatement} (h : SameRecords same s s')
    (ht : SameRecords same t t') : SameRecords same (s ++ t) (s' ++ t') :=
  List.rel_append h ht

theorem gather_eq_some {complete closes : Text → Bool} (hc : CompletedBy complete closes)
    {text : Text} {front : List Line} {last : Line} (ho : complete text = false)
    (hfront : ∀ l ∈ front, closes l.trimmed = false) (hlast : closes last.trimmed = true)
    (rest : List Line) :
    gather complete text ((front ++ [last] ++ rest).map (·.text)) =
      some (text ++ (front ++ [last]).flatMap Line.trimmed, (front ++ [last]).length) := by
  induction front generalizing text with
  | nil =>
    have hadd : complete (text ++ last.text.trim) = true := (hc _ _ ho).trans hlast
    simp [gather, ho, gather_of_complete hadd, Line.trimmed]
  | cons line front ih =>
    obtain ⟨hline, hfront⟩ := List.forall_mem_cons.mp hfront
    have hadd : complete (text ++ line.text.trim) = false := (hc _ _ ho).trans hline
    simpa [gather, ho, Line.trimmed, Function.comp_def] using ih hadd hfront

theorem StatementRange.gather_lines (r : StatementRange) {text : Text}
    (ho : endsStatement text = false) (rest : List Line) :
    gather endsStatement text ((r.lines ++ rest).map (·.text)) =
      some (text ++ r.text, r.lines.length) :=
  gather_eq_some completedBy_endsStatement ho r.front_open r.last_ends rest

theorem Line.corresponds_numbered (n n' : Nat) (ts : List Text) :
    List.Forall₂ (Line.Corresponds fun _ _ => True) (numbered n ts) (numbered n' ts) := by
  induction ts generalizing n n' with
  | nil => exact .nil
  | cons t ts ih => exact .cons ⟨trivial, rfl⟩ (ih _ _)

namespace ReadAlike

open EquationFile

/-- From lines that read alike the same is gathered, whether it starts or goes on in them, and what
is left of them reads alike. -/
theorem rel_gather (h : ReadAlike same lines lines') (text : Text) :
    Option.Rel (fun p p' => p.1 = p'.1 ∧ ReadAlike same (lines.drop p.2) (lines'.drop p'.2))
      (gather endsStatement text (lines.map (·.text)))
      (gather endsStatement text (lines'.map (·.text))) := by
  induction h generalizing text with
  | nil =>
    cases hc : endsStatement text with
    | true =>
      rw [List.map_nil, gather_of_complete hc]
      exact .some ⟨rfl, .nil⟩
    | false =>
      rw [List.map_nil, gather, hc]
      exact .none
  | @line l l' ls ls' h rest ih =>
    cases hc : endsStatement text with
    | true =>
      rw [gather_of_complete hc, gather_of_complete hc]
      exact .some ⟨rfl, .line h rest⟩
    | false =>
      have htext : text ++ l.text.trim = text ++ l'.text.trim := congrArg (text ++ ·) h.trimmed
      have hrest := ih (text ++ l'.text.trim)
      simp only [List.map_cons, gather, hc, htext, Bool.false_eq_true, if_false]
      generalize gather endsStatement (text ++ l'.text.trim) (ls.map (·.text)) = x at hrest ⊢
      generalize gather endsStatement (text ++ l'.text.trim) (ls'.map (·.text)) = y at hrest ⊢
      cases hrest with
      | none => exact .none
      | some h => exact .some h
  | @statement r r' ls ls' h rest ih =>
    cases hc : endsStatement text with
    | true =>
      rw [gather_of_complete hc, gather_of_complete hc]
      exact .some ⟨rfl, .statement h rest⟩
    | false =>
      -- Even if the text began before the statement, it ends where the statement ends.
      rw [r.gather_lines hc, r'.gather_lines hc]
      exact .some ⟨congrArg (text ++ ·) h.text, by simpa using rest⟩

theorem of_forall₂ (h : List.Forall₂ (Line.Corresponds same) lines lines') :
    ReadAlike same lines lines' := by
  induction h with
  | nil => exact .nil
  | cons hl _ ih => exact .line hl ih

theorem append {more more' : List Line} (h : ReadAlike same lines lines')
    (hmore : ReadAlike same more more') : ReadAlike same (lines ++ more) (lines' ++ more') := by
  induction h with
  | nil => exact hmore
  | line hl _ ih => exact .line hl ih
  | statement hr _ ih =>
    rw [List.append_assoc, List.append_assoc]
    exact .statement hr ih

theorem numbered (n n' : Nat) (ts : List Text) :
    ReadAlike (fun _ _ => True) (Line.numbered n ts) (Line.numbered n' ts) :=
  of_forall₂ (Line.corresponds_numbered n n' ts)

theorem eq_nil (h : ReadAlike same [] lines') : lines' = [] := by
  generalize hl : [] = lines at h
  cases h with
  | nil => rfl
  | line => contradiction
  | statement => simp [StatementRange.lines] at hl

structure Heads (same : Nat → Nat → Prop) (line line' : Line) : Prop where
  number : same line.number line'.number
  blank_iff : line.trimmed = [] ↔ line'.trimmed = []
  isOn : ∀ m : Marker, m ≠ .main → m.isOn line.trimmed = m.isOn line'.trimmed
  writes : line.trimmed.startsWith EquationFile.writing =
    line'.trimmed.startsWith EquationFile.writing
  writesOutputs : line.trimmed.startsWith EquationFile.writingOutputs =
    line'.trimmed.startsWith EquationFile.writingOutputs

theorem Heads.of_corresponds (h : line.Corresponds same line') : Heads same line line' where
  number := h.number
  blank_iff := by rw [h.trimmed]
  isOn _ _ := by rw [h.trimmed]
  writes := by rw [h.trimmed]
  writesOutputs := by rw [h.trimmed]

theorem Heads.of_rewraps {r r' : StatementRange} (h : r.Rewraps same r') :
    Heads same r.first r'.first := by
  have hplain := h.plain r.first r.first_mem_lines
  have hplain' := h.plain' r'.first r'.first_mem_lines
  exact {
    number := h.number
    blank_iff := iff_of_false hplain.1 hplain'.1
    isOn := fun m hm =>
      (hplain.2 m (Marker.mem_comments hm)).trans (hplain'.2 m (Marker.mem_comments hm)).symm
    writes := h.writes
    writesOutputs := h.writesOutputs }

theorem Heads.opensSpecified (h : Heads same line line') :
    Marker.opensSpecified line.trimmed = Marker.opensSpecified line'.trimmed := by
  rw [Marker.opensSpecified, h.isOn _ (by decide), h.isOn _ (by decide), Marker.opensSpecified]

theorem exists_cons (h : ReadAlike same (line :: rest) lines') :
    ∃ line' rest', lines' = line' :: rest' ∧ Heads same line line' ∧
      (¬ IsPlain line.trimmed → ReadAlike same rest rest') := by
  generalize hl : line :: rest = lines at h
  cases h with
  | nil => contradiction
  | line h hrest =>
    cases hl
    exact ⟨_, _, rfl, .of_corresponds h, fun _ => hrest⟩
  | @statement r r' ls ls' h hrest =>
    obtain ⟨tail, htail⟩ := List.head?_eq_some_iff.mp r.head?_lines
    obtain ⟨tail', htail'⟩ := List.head?_eq_some_iff.mp r'.head?_lines
    rw [htail, List.cons_append] at hl
    obtain ⟨rfl, rfl⟩ := List.cons.inj hl
    refine ⟨r'.first, tail' ++ ls', by rw [htail', List.cons_append], .of_rewraps h, fun hp => ?_⟩
    exact absurd (h.plain r.first r.first_mem_lines) hp

theorem dropWhile (h : ReadAlike same lines lines') {p : Text → Bool}
    (hp : ∀ t, IsPlain t → p t = true) :
    ReadAlike same (lines.dropWhile (p ·.trimmed)) (lines'.dropWhile (p ·.trimmed)) := by
  induction h with
  | nil => exact .nil
  | @line l l' ls ls' h rest ih =>
    rw [List.dropWhile_cons, List.dropWhile_cons, ← h.trimmed]
    split
    · exact ih
    · exact .line h rest
  | statement h rest ih =>
    rw [List.dropWhile_append_of_pos fun l hl => hp _ (h.plain l hl),
      List.dropWhile_append_of_pos fun l hl => hp _ (h.plain' l hl)]
    exact ih

variable {mode : Terminator}

theorem matched_statementAt (h : ReadAlike same (line :: rest) (line' :: rest'))
    (hn : same line.number line'.number) :
    Matched (ExportError.Corresponds same)
      (fun p p' => p.1 = p'.1 ∧ ReadAlike same (rest.drop p.2) (rest'.drop p'.2))
      (statementAt mode line rest) (statementAt mode line' rest') := by
  have hstart (l : Line) (ls : List Line) : gather endsStatement [] ((l :: ls).map (·.text)) =
      (gatherStatement l.text (ls.map (·.text))).map fun p => (p.1, p.2 + 1) := rfl
  have hrel := h.rel_gather []
  rw [hstart, hstart] at hrel
  unfold statementAt
  generalize gatherStatement line.text (rest.map (·.text)) = x at hrel ⊢
  generalize gatherStatement line'.text (rest'.map (·.text)) = y at hrel ⊢
  cases x with
  | none =>
    cases y with
    | none => exact .error (.unfinishedStatement hn)
    | some q => cases hrel
  | some p =>
    cases y with
    | none => cases hrel
    | some q =>
      obtain ⟨hwhole, hleft⟩ : p.1 = q.1 ∧ ReadAlike same (rest.drop p.2) (rest'.drop q.2) := by
        cases hrel with
        | some h => exact h
      exact .ok ⟨congrArg mode.finish hwhole, hleft⟩

theorem not_isPlain_nil : ¬ IsPlain [] := fun h => h.1 rfl

theorem not_isPlain_of_isOn {m : Marker} {t : Text} (hm : m ≠ .main) (h : m.isOn t = true) :
    ¬ IsPlain t := by
  intro hplain
  rw [hplain.2 m (Marker.mem_comments hm)] at h
  contradiction

theorem not_isPlain_of_opensSpecified {t : Text} (h : Marker.opensSpecified t = true) :
    ¬ IsPlain t := by
  rcases Bool.or_eq_true_iff.mp h with h | h
  · exact not_isPlain_of_isOn (by decide) h
  · exact not_isPlain_of_isOn (by decide) h

theorem matched_block (h : ReadAlike same lines lines') (s : FileSection) :
    Matched (ExportError.Corresponds same) (SameRecords same) (block mode s lines)
      (block mode s lines') := by
  fun_induction block mode s lines generalizing lines' with
  | case1 =>
    rw [h.eq_nil, block]
    exact .ok .nil
  | case2 line rest hb =>
    obtain ⟨line', rest', rfl, hheads, -⟩ := h.exists_cons
    rw [block, if_pos (hheads.blank_iff.mp hb)]
    exact .ok .nil
  | case3 line rest hb ih =>
    obtain ⟨line', rest', rfl, hheads, -⟩ := h.exists_cons
    rw [block, if_neg (mt hheads.blank_iff.mpr hb)]
    refine (matched_statementAt h hheads.number).bind ?_
    rintro ⟨statement, used⟩ ⟨_, used'⟩ ⟨rfl, hleft⟩
    refine (ih used hleft).bind ?_
    intro statements statements' hs
    exact .ok (.cons ⟨rfl, rfl, hheads.number⟩ hs)

theorem matched_dynamics (h : ReadAlike same lines lines') (specified : Bool) :
    Matched (ExportError.Corresponds same) (SameRecords same) (dynamics mode specified lines)
      (dynamics mode specified lines') := by
  fun_induction dynamics mode specified lines generalizing lines' with
  | case1 =>
    rw [h.eq_nil, dynamics]
    exact .error (.refl _)
  | case2 _ line rest hm =>
    obtain ⟨line', rest', rfl, hheads, -⟩ := h.exists_cons
    rw [dynamics, ← hheads.isOn _ (by decide), if_pos hm]
    exact .ok .nil
  | case3 _ line rest hm hb ih =>
    obtain ⟨line', rest', rfl, hheads, hrest⟩ := h.exists_cons
    rw [dynamics, ← hheads.isOn _ (by decide), if_neg hm, if_pos (hheads.blank_iff.mp hb)]
    exact ih (hrest (hb ▸ not_isPlain_nil))
  | case4 _ line rest hm hb ho ih =>
    obtain ⟨line', rest', rfl, hheads, hrest⟩ := h.exists_cons
    rw [dynamics, ← hheads.isOn _ (by decide), if_neg hm, if_neg (mt hheads.blank_iff.mpr hb),
      ← hheads.opensSpecified, if_pos ho]
    exact ih (hrest (not_isPlain_of_opensSpecified ho))
  | case5 specified line rest hm hb ho ih =>
    obtain ⟨line', rest', rfl, hheads, -⟩ := h.exists_cons
    rw [dynamics, ← hheads.isOn _ (by decide), if_neg hm, if_neg (mt hheads.blank_iff.mpr hb),
      ← hheads.opensSpecified, if_neg ho]
    refine (matched_statementAt h hheads.number).bind ?_
    rintro ⟨statement, used⟩ ⟨_, used'⟩ ⟨rfl, hleft⟩
    refine (ih used hleft).bind ?_
    intro statements statements' hs
    exact .ok (.cons ⟨rfl, rfl, hheads.number⟩ hs)

theorem matched_dynamicsAfterBlank (h : ReadAlike same lines lines') :
    Matched (ExportError.Corresponds same) (SameRecords same) (dynamicsAfterBlank mode lines)
      (dynamicsAfterBlank mode lines') := by
  have hleft := h.dropWhile (p := fun t => t ≠ []) fun t ht => by simpa using ht.1
  unfold dynamicsAfterBlank
  have hblank := List.head?_dropWhile_not (fun l : Line => decide (l.trimmed ≠ [])) lines
  generalize lines.dropWhile (fun l => decide (l.trimmed ≠ [])) = ls at hleft hblank ⊢
  generalize lines'.dropWhile (fun l => decide (l.trimmed ≠ [])) = ls' at hleft ⊢
  cases ls with
  | nil =>
    rw [hleft.eq_nil]
    exact .error (.refl _)
  | cons line rest =>
    obtain ⟨line', rest', rfl, -, hrest⟩ := hleft.exists_cons
    have hb : line.trimmed = [] := by simpa using hblank
    exact matched_dynamics (hrest (hb ▸ not_isPlain_nil)) false

theorem matched_writeBlock (h : ReadAlike same lines lines') :
    Matched (ExportError.Corresponds same) (fun p p' => p.1 = p'.1 ∧ SameRecords same p.2 p'.2)
      (writeBlock mode lines) (writeBlock mode lines') := by
  fun_induction writeBlock mode lines generalizing lines' with
  | case1 =>
    rw [h.eq_nil, writeBlock]
    exact .ok ⟨rfl, .nil⟩
  | case2 line rest hb =>
    obtain ⟨line', rest', rfl, hheads, -⟩ := h.exists_cons
    rw [writeBlock, if_pos (hheads.blank_iff.mp hb)]
    exact .ok ⟨rfl, .nil⟩
  | case3 line rest hb ih =>
    obtain ⟨line', rest', rfl, hheads, -⟩ := h.exists_cons
    rw [writeBlock, if_neg (mt hheads.blank_iff.mpr hb)]
    refine (matched_statementAt h hheads.number).bind ?_
    rintro ⟨statement, used⟩ ⟨_, used'⟩ ⟨rfl, hleft⟩
    refine (ih used hleft).bind ?_
    rintro ⟨names, statements⟩ ⟨_, statements'⟩ ⟨rfl, hs⟩
    dsimp only
    rw [← hheads.writesOutputs, ← hheads.writes]
    split
    · exact .ok ⟨rfl, hs⟩
    · split
      · exact .ok ⟨rfl, hs⟩
      · exact .ok ⟨rfl, .cons ⟨rfl, rfl, hheads.number⟩ hs⟩

theorem matched_behind (h : ReadAlike same lines lines') {m : Marker} (hm : m ≠ .main) :
    Matched (ExportError.Corresponds same) (ReadAlike same) (behind m lines) (behind m lines') := by
  have hleft := h.dropWhile (p := fun t => !m.isOn t) fun t ht => by
    simp [ht.2 m (Marker.mem_comments hm)]
  unfold behind
  have hmarker := List.head?_dropWhile_not (fun l : Line => !m.isOn l.trimmed) lines
  generalize lines.dropWhile (fun l => !m.isOn l.trimmed) = ls at hleft hmarker ⊢
  generalize lines'.dropWhile (fun l => !m.isOn l.trimmed) = ls' at hleft ⊢
  cases ls with
  | nil =>
    rw [hleft.eq_nil]
    exact .error (.refl _)
  | cons line rest =>
    obtain ⟨line', rest', rfl, -, hrest⟩ := hleft.exists_cons
    exact .ok (hrest (not_isPlain_of_isOn hm (by simpa using hmarker)))

end ReadAlike

end MotionExport
