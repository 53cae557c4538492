import MotionExport.Proofs.Export.Placement

/-! # Matrix entries

The matrix entries of the two output blocks make up the linear model, together with what the
evaluation block says behind its switch. The other sections are not searched for matrix entries: all
that they say goes to the collection of the section.
-/

namespace MotionExport

open ParsedStatement (inSection)

/-- Where the matrix entries of a log go. -/
structure MatrixPartition (matrixNames : List Text) (statements : List ParsedStatement)
    (c : Placement) : Prop where
  /-- A matrix entry of an output block feeds the linear model, once, and nothing else. -/
  in_linear : ∀ p, p.isMatrixEntry matrixNames = true → p.origin.isOutputBlock = true →
    c.linear.count p = statements.count p ∧
      p ∉ c.constants ∧ p ∉ c.motion ∧ p ∉ c.inputs ∧ p ∉ c.dependents ∧ p ∉ c.outputs
  /-- Any other matrix entry follows its section. -/
  in_section : ∀ p, p.isMatrixEntry matrixNames = true → p.origin.isOutputBlock = false →
    (c.ofSection p.origin).count p = statements.count p ∧
      (∀ s, s ≠ p.origin → p ∉ c.ofSection s) ∧ p ∉ c.outputs ∧ p ∉ c.linear
  /-- The matrix entries of one block keep their order. -/
  in_order : ∀ s, s.isOutputBlock = true →
    inSection (c.linear.filter (·.isMatrixEntry matrixNames)) s =
      (inSection statements s).filter (·.isMatrixEntry matrixNames)

namespace Placement

variable {c : Placement} {outputNames matrixNames : List Text}
  {statements early late : List ParsedStatement} {p : ParsedStatement}

theorem Places.not_mem_outputs_linear (h : c.Places statements)
    (hp : p.origin.isOutputBlock = false) : p ∉ c.outputs ∧ p ∉ c.linear := by
  have hall := h.count_eq p
  have hown := h.count_ofSection hp
  rw [← List.count_eq_zero, ← List.count_eq_zero]
  cases ho : p.origin with
  | constants => rw [ho, ofSection] at hown; omega
  | motion => rw [ho, ofSection] at hown; omega
  | specified => rw [ho, ofSection] at hown; omega
  | writeOutput => simp [ho, FileSection.isOutputBlock] at hp
  | evaluateOutput => simp [ho, FileSection.isOutputBlock] at hp

/-- If no output is a matrix entry, the matrix entries of the output blocks feed the linear
model. -/
theorem Places.matrixEntry_in_linear (h : c.Places statements)
    (houtputs : ∀ q ∈ c.outputs, q.isMatrixEntry matrixNames = false)
    (hm : p.isMatrixEntry matrixNames = true) (hp : p.origin.isOutputBlock = true) :
    c.linear.count p = statements.count p ∧
      p ∉ c.constants ∧ p ∉ c.motion ∧ p ∉ c.inputs ∧ p ∉ c.dependents ∧ p ∉ c.outputs := by
  have hne : ∀ s : FileSection, s.isOutputBlock = false → p.origin ≠ s := by
    rintro s hs rfl
    rw [hp] at hs
    cases hs
  have hconstants : p ∉ c.constants := h.not_mem_ofSection (hne .constants rfl)
  have hmotion : p ∉ c.motion := h.not_mem_ofSection (hne .motion rfl)
  have hinputs : p ∉ c.inputs := h.not_mem_ofSection (hne .specified rfl)
  have hout : p ∉ c.outputs := fun ho => by
    rw [houtputs p ho] at hm
    cases hm
  have hcount := h.count_eq p
  rw [List.count_eq_zero.mpr hconstants, List.count_eq_zero.mpr hmotion,
    List.count_eq_zero.mpr hinputs, List.count_eq_zero.mpr hout] at hcount
  refine ⟨by omega, hconstants, hmotion, hinputs, ?_, hout⟩
  exact fun hd => hmotion (h.dependents_sublist.subset hd)

theorem filter_linear_switched (h : inSection statements .evaluateOutput = early ++ late) :
    (switched outputNames matrixNames statements early late).linear.filter
        (·.isMatrixEntry matrixNames) =
      (inSection statements .evaluateOutput).filter (·.isMatrixEntry matrixNames) ++
        (inSection statements .writeOutput).filter (·.isMatrixEntry matrixNames) := by
  rw [switched, h]
  simp only [List.filter_append, List.filter_filter, Bool.and_self]

theorem matrixPartition_switched (h : inSection statements .evaluateOutput = early ++ late) :
    MatrixPartition matrixNames statements
      (switched outputNames matrixNames statements early late) where
  in_linear p hm hp := by
    refine (places_switched h).matrixEntry_in_linear (fun q hq => ?_) hm hp
    rcases List.mem_append.mp hq with hq | hq
    · simpa using (List.mem_filter.mp hq).2
    · simpa using (List.mem_filter.mp hq).2
  in_section p _ hp :=
    ⟨(places_switched h).count_ofSection hp,
      fun _ hs => (places_switched h).not_mem_ofSection hs.symm,
      (places_switched h).not_mem_outputs_linear hp⟩
  in_order s hs := by
    have hpart : ∀ q : FileSection, ((inSection statements q).filter
        (·.isMatrixEntry matrixNames)).Sublist (inSection statements q) :=
      fun _ => List.filter_sublist
    rw [filter_linear_switched h, inSection, List.filter_append, ← inSection, ← inSection,
      ParsedStatement.inSection_of_sublist (hpart _),
      ParsedStatement.inSection_of_sublist (hpart _)]
    cases s with
    | constants => cases hs
    | motion => cases hs
    | specified => cases hs
    | writeOutput => simp
    | evaluateOutput => simp

end Placement

namespace Classification

variable {log : StatementLog} {stateNames matrixNames : List Text} {sorted : Classification}

/-- When a log is sorted, the matrix entries of its output blocks go to the linear model, and those
of other sections go where their section goes. -/
theorem matrixEntries_partitioned (h : ofLog log stateNames matrixNames = .ok sorted) :
    ∃ (statements : List ParsedStatement) (c : Placement),
      statements.map (·.logged) = log.statements ∧ c.Places statements ∧ c.sorting = sorted ∧
        MatrixPartition matrixNames statements c := by
  obtain ⟨statements, early, late, hlogged, hevaluated, hsorted⟩ :=
    Placement.exists_switched_of_ofLog h
  exact ⟨statements, _, hlogged, Placement.places_switched hevaluated, hsorted,
    Placement.matrixPartition_switched hevaluated⟩

def strayLog : StatementLog where
  outputNames := ["C[1]".toList, "y".toList]
  statements := [⟨.constants, "A[1] = 1".toList, 3⟩, ⟨.specified, "B[1] = 2".toList, 6⟩,
    ⟨.motion, "C[1] = 3".toList, 8⟩, ⟨.writeOutput, "B[2] = 7".toList, 16⟩,
    ⟨.evaluateOutput, "D[1] = 4".toList, 11⟩, ⟨.evaluateOutput, "y = 5".toList, 12⟩,
    ⟨.evaluateOutput, "A[2] = 6".toList, 13⟩]

def straySorting : Classification where
  constants := [⟨"A[1]".toList, "1".toList⟩]
  motion := [⟨"C[1]".toList, "3".toList⟩]
  inputs := [⟨"B[1]".toList, "2".toList⟩]
  dependents := [⟨"C[1]".toList, "3".toList⟩]
  outputs := [⟨"y".toList, "5".toList⟩]
  linear := [⟨"D[1]".toList, "4".toList⟩, ⟨"A[2]".toList, "6".toList⟩, ⟨"B[2]".toList, "7".toList⟩]

theorem ofLog_strayLog : ofLog strayLog [] defaultMatrixNames = .ok straySorting := by
  decide +kernel

theorem strayLog_partitioned :
    ofLog strayLog [] defaultMatrixNames = .ok straySorting ∧
      ∃ (statements : List ParsedStatement) (c : Placement),
        statements.map (·.logged) = strayLog.statements ∧ c.Places statements ∧
          c.sorting = straySorting ∧ MatrixPartition defaultMatrixNames statements c :=
  ⟨ofLog_strayLog, matrixEntries_partitioned ofLog_strayLog⟩

/-- The constants, the motion, the inputs and the dependent variables each hold a matrix entry that
the linear model lacks. -/
theorem strayLog_matrixEntries_outside :
    ofLog strayLog [] defaultMatrixNames = .ok straySorting ∧
      ∀ part ∈ [straySorting.constants, straySorting.motion, straySorting.inputs,
          straySorting.dependents],
        ∃ e ∈ part, isMatrixEntry defaultMatrixNames e = true ∧ e ∉ straySorting.linear :=
  ⟨ofLog_strayLog, by decide +kernel⟩

end Classification

end MotionExport
