import MotionExport.Proofs.Model.AssemblyOutcome

/-! # Kinds of outputs

An output of a document is a state, a dependent variable or an output of its own, and counts as the
first of these that it is. The three exclude each other unless the log assigns a name again that is
produced already: nothing keeps the motion from assigning a state, or the output blocks from
assigning a state or a dependent variable.
-/

namespace MotionExport

/-- If there is a kind at all, there is only one unless two of them hold together. -/
theorem OutputKind.existsUnique_iff {p : OutputKind → Prop} (h : ∃ kind, p kind) :
    (∃! kind, p kind) ↔
      ¬ (p .state ∧ (p .dependent ∨ p .nonState) ∨ p .dependent ∧ p .nonState) := by
  constructor
  · rintro ⟨kind, -, hunique⟩ (⟨hs, hd | hn⟩ | ⟨hd, hn⟩)
    · cases (hunique _ hs).trans (hunique _ hd).symm
    · cases (hunique _ hs).trans (hunique _ hn).symm
    · cases (hunique _ hd).trans (hunique _ hn).symm
  · intro hone
    obtain ⟨kind, hk⟩ := h
    refine ⟨kind, hk, fun other ho => ?_⟩
    cases kind with
    | state =>
      cases other with
      | state => rfl
      | dependent => exact absurd (.inl ⟨hk, .inl ho⟩) hone
      | nonState => exact absurd (.inl ⟨hk, .inr ho⟩) hone
    | dependent =>
      cases other with
      | state => exact absurd (.inl ⟨ho, .inl hk⟩) hone
      | dependent => rfl
      | nonState => exact absurd (.inr ⟨hk, ho⟩) hone
    | nonState =>
      cases other with
      | state => exact absurd (.inl ⟨ho, .inr hk⟩) hone
      | dependent => exact absurd (.inr ⟨ho, hk⟩) hone
      | nonState => rfl

namespace Classification

def MotionDefines (motion : List Equation) (name : Text) : Prop :=
  ∃ e ∈ motion, e.isAuxiliary = false ∧ e.lhs = name

variable {outputNames matrixNames : List Text} {motion written early : List Equation}
  {output : Text}

theorem mem_dependents_iff (ho : output ∈ outputNames) :
    output ∈ (motion.filter fun e => !e.isAuxiliary && outputNames.contains e.lhs).map (·.lhs) ↔
      MotionDefines motion output := by
  rw [List.mem_map, MotionDefines]
  constructor
  · rintro ⟨e, he, rfl⟩
    obtain ⟨he, hp⟩ := List.mem_filter.mp he
    rw [Bool.and_eq_true, Bool.not_eq_true'] at hp
    exact ⟨e, he, hp.1, rfl⟩
  · rintro ⟨e, he, ha, rfl⟩
    exact ⟨e, List.mem_filter.mpr ⟨he, by simpa [ha] using ho⟩, rfl⟩

theorem mem_outputs_iff :
    output ∈ (written.filter (!isMatrixEntry matrixNames ·) ++
        early.filter (!isMatrixEntry matrixNames ·)).map (·.lhs) ↔
      Defines matrixNames (written ++ early) output := by
  simp only [← List.filter_append, List.mem_map, List.mem_filter, Bool.not_eq_true', Defines,
    and_assoc]

end Classification

open Classification

namespace Document

variable {name : Text} {parameters : ParameterFile} {log : StatementLog} {matrixNames : List Text}
  {d : Document} {output : Text}

/-- The output is assigned although it is a state already, or by an output block although it is a
dependent variable already. The equations of `block` come from the output blocks. -/
def AssignedAgain (d : Document) (matrixNames : List Text) (block : List Equation)
    (output : Text) : Prop :=
  output ∈ d.stateNames ∧ (MotionDefines d.motion output ∨ Defines matrixNames block output) ∨
    MotionDefines d.motion output ∧ Defines matrixNames block output

theorem exists_outputKind?_eq_some (h : ∃ kind, d.Produces kind output) :
    ∃ kind, d.outputKind? output = some kind := by
  rw [← Option.ne_none_iff_exists', ne_eq, outputKind?_eq_none_iff, not_forall_not]
  exact h

theorem exists_assembled_of_build (h : build name parameters log matrixNames = .ok d) :
    ∃ sorted auxCount, Classification.ofLog log parameters.stateNames matrixNames = .ok sorted ∧
      d = assembled name parameters log sorted auxCount := by
  rw [build_eq] at h
  obtain ⟨sorted, hs, h⟩ := bind_eq_ok_iff.mp h
  obtain ⟨auxCount, -, h⟩ := bind_eq_ok_iff.mp h
  obtain ⟨_, -, h⟩ := bind_eq_ok_iff.mp h
  cases h
  exact ⟨sorted, auxCount, hs, rfl⟩

end Document

/-- Where the outputs of a document come from. -/
structure OutputResolution (log : StatementLog) (matrixNames : List Text) (d : Document) where
  written : List Equation
  evaluated : List Equation
  /-- What the evaluation block says before its switch. -/
  early : List Equation
  motion_eq : equationsIn log .motion = .ok d.motion
  written_eq : equationsIn log .writeOutput = .ok written
  evaluated_eq : equationsIn log .evaluateOutput = .ok evaluated
  shortest : IsShortestCover matrixNames
    (IsPending d.outputNames d.stateNames matrixNames d.motion written) evaluated early
  /-- Every output is of some kind, the first that produces it. -/
  resolved : ∀ output ∈ d.outputNames, ∃ kind, d.outputKind? output = some kind ∧
    (OutputKind.all.find? fun kind => d.Produces kind output) = some kind
  unique_iff : ∀ output ∈ d.outputNames, (∃! kind, d.Produces kind output) ↔
    ¬ d.AssignedAgain matrixNames (written ++ early) output

namespace Document

variable {name : Text} {parameters : ParameterFile} {log : StatementLog} {matrixNames : List Text}
  {d : Document} {output : Text}

/-- The outputs of a document are resolved, and only an output that is assigned again is produced in
two ways. -/
theorem outputs_resolved (h : build name parameters log matrixNames = .ok d) :
    Nonempty (OutputResolution log matrixNames d) := by
  obtain ⟨sorted, auxCount, hs, rfl⟩ := exists_assembled_of_build h
  have hproduced : ∀ output ∈ log.outputNames, ∃ kind,
      (assembled name parameters log sorted auxCount).Produces kind output :=
    fun output ho => exists_produces_assembled hs ho auxCount
  obtain ⟨constants, motion, inputs, written, evaluated, -, hm, -, hw, he, hsort⟩ :=
    exists_sort_of_ofLog hs
  obtain ⟨early, late, rfl, hshort, rfl⟩ := exists_switch_of_sort hsort
  refine ⟨⟨written, early ++ late, early, hm, hw, he, hshort, ?resolved, ?unique⟩⟩
  case resolved =>
    intro output ho
    obtain ⟨kind, hk⟩ := exists_outputKind?_eq_some (hproduced output ho)
    exact ⟨kind, hk, outputKind?_eq_find? .. ▸ hk⟩
  case unique =>
    intro output ho
    rw [OutputKind.existsUnique_iff (hproduced output ho), not_iff_not]
    exact or_congr (and_congr_right' (or_congr (mem_dependents_iff ho) mem_outputs_iff))
      (and_congr (mem_dependents_iff ho) mem_outputs_iff)

end Document

def redefinedLog : StatementLog where
  outputNames := ["x".toList, "f".toList, "e".toList]
  statements := [⟨.motion, "x = v".toList, 8⟩, ⟨.motion, "f = k*x".toList, 9⟩,
    ⟨.writeOutput, "x = 3*x".toList, 16⟩, ⟨.writeOutput, "f = 2*f".toList, 17⟩,
    ⟨.evaluateOutput, "e = f".toList, 12⟩]

def redefinedDocument : Document where
  name := "Spring".toList
  integration := springParameters.integration
  parameters := springParameters.parameters
  states := springParameters.states
  globals := []
  auxCount := 0
  constants := []
  motion := [⟨"x".toList, "v".toList⟩, ⟨"f".toList, "k*x".toList⟩]
  inputs := []
  dependents := [⟨"x".toList, "v".toList⟩, ⟨"f".toList, "k*x".toList⟩]
  outputNames := ["x".toList, "f".toList, "e".toList]
  outputs := [⟨"x".toList, "3*x".toList⟩, ⟨"f".toList, "2*f".toList⟩, ⟨"e".toList, "f".toList⟩]
  linear := []

theorem build_redefinedLog : Document.build "Spring".toList springParameters redefinedLog
    defaultMatrixNames = .ok redefinedDocument := by
  decide +kernel

theorem redefinedDocument_resolved :
    Document.build "Spring".toList springParameters redefinedLog defaultMatrixNames =
        .ok redefinedDocument ∧
      Nonempty (OutputResolution redefinedLog defaultMatrixNames redefinedDocument) :=
  ⟨build_redefinedLog, Document.outputs_resolved build_redefinedLog⟩

/-- The outputs `x` and `f` are produced in several ways. -/
theorem redefinedDocument_not_existsUnique :
    Document.build "Spring".toList springParameters redefinedLog defaultMatrixNames =
        .ok redefinedDocument ∧
      "x".toList ∈ redefinedDocument.outputNames ∧
      (∀ kind, redefinedDocument.Produces kind "x".toList) ∧
      "f".toList ∈ redefinedDocument.outputNames ∧
      ¬ ∃! kind, redefinedDocument.Produces kind "f".toList := by
  refine ⟨build_redefinedLog, by decide, fun kind => by cases kind <;> decide, by decide, ?_⟩
  rintro ⟨kind, -, hunique⟩
  have hdependent := hunique .dependent (by decide)
  have hnonState := hunique .nonState (by decide)
  cases hdependent.trans hnonState.symm

end MotionExport
