import MotionExport.Model.Assembly
import MotionExport.Proofs.Export.MissingOutputs
import MotionExport.Proofs.Export.ParameterNames

/-! # The outcome of assembly

Whatever can be wrong with an export pair is found while the two files are read and the log is
sorted. The names of a parameter file that has been read are distinct, and a log that has been
sorted defines all its outputs, so a document that has been put together is valid.
-/

namespace MotionExport

namespace OutputKind

def all : List OutputKind := [state, dependent, nonState]

theorem mem_all (kind : OutputKind) : kind ∈ all := by
  cases kind <;> decide

end OutputKind

def ExportError.isInvalidDocument : ExportError → Bool
  | sharedName _ => true
  | unresolvedOutputs (.undefined _) => true
  | _ => false

/-- A computation that does not fail as validation does. -/
def NeverInvalid {α : Type} (x : Except ExportError α) : Prop :=
  ∀ error, x = .error error → error.isInvalidDocument = false

namespace NeverInvalid

variable {α β : Type} {x : Except ExportError α} {f : α → Except ExportError β}

theorem ok (a : α) : NeverInvalid (.ok a) := by
  rintro error ⟨⟩

theorem bind (hx : NeverInvalid x) (hf : ∀ a, NeverInvalid (f a)) : NeverInvalid (x >>= f) := by
  cases x with
  | error e =>
    rintro error ⟨⟩
    exact hx e rfl
  | ok a => exact hf a

theorem mapM (as : List α) (hf : ∀ a, NeverInvalid (f a)) : NeverInvalid (as.mapM f) := by
  induction as with
  | nil => exact ok []
  | cons a as ih =>
    rw [List.mapM_cons]
    exact (hf a).bind fun _ => ih.bind fun _ => ok _

end NeverInvalid

namespace Document

variable {d : Document} {output : Text}

def Produces (d : Document) : OutputKind → Text → Prop
  | .state, output => output ∈ d.stateNames
  | .dependent, output => output ∈ d.dependents.map (·.lhs)
  | .nonState, output => output ∈ d.outputs.map (·.lhs)

instance (d : Document) : (kind : OutputKind) → (output : Text) →
    Decidable (d.Produces kind output)
  | .state, output => inferInstanceAs (Decidable (output ∈ d.stateNames))
  | .dependent, output => inferInstanceAs (Decidable (output ∈ d.dependents.map (·.lhs)))
  | .nonState, output => inferInstanceAs (Decidable (output ∈ d.outputs.map (·.lhs)))

theorem outputKind?_eq_find? (d : Document) (output : Text) :
    d.outputKind? output = OutputKind.all.find? fun kind => d.Produces kind output := by
  simp only [outputKind?, OutputKind.all, List.find?_cons, List.find?_nil, Produces]
  split <;> rename_i hstate
  · simp [hstate]
  · split <;> rename_i hdependent
    · simp [hstate, hdependent]
    · split <;> rename_i houtput
      · simp [hstate, hdependent, houtput]
      · simp [hstate, hdependent, houtput]

theorem outputKind?_eq_none_iff :
    d.outputKind? output = none ↔ ∀ kind, ¬ d.Produces kind output := by
  rw [outputKind?_eq_find?, List.find?_eq_none]
  constructor
  · intro h kind
    simpa using h kind kind.mem_all
  · intro h kind _
    simpa using h kind

theorem firstRepeated?_eq_none {names seen : List Text} (hn : names.Nodup)
    (hs : ∀ name ∈ names, name ∉ seen) : firstRepeated? seen names = none := by
  induction names generalizing seen with
  | nil => rfl
  | cons name names ih =>
    obtain ⟨hname, hn⟩ := List.nodup_cons.mp hn
    obtain ⟨hnew, hs⟩ := List.forall_mem_cons.mp hs
    rw [firstRepeated?, if_neg hnew]
    refine ih hn fun other ho => ?_
    rw [List.mem_cons, not_or]
    exact ⟨fun he => hname (he ▸ ho), hs other ho⟩

/-- A document is valid if its names are distinct and all its outputs are produced. -/
theorem validate_eq_ok (hn : (d.parameterNames ++ d.stateNames).Nodup)
    (ho : ∀ output ∈ d.outputNames, ∃ kind, d.Produces kind output) : d.validate = .ok () := by
  have hdefined : d.undefinedOutputs = [] := by
    refine List.filter_eq_nil_iff.mpr fun output hmem => ?_
    rw [Option.isNone_iff_eq_none, outputKind?_eq_none_iff, not_forall_not]
    exact ho output hmem
  rw [validate, firstRepeated?_eq_none hn fun _ _ => List.not_mem_nil, hdefined]

end Document

namespace Classification

variable {log : StatementLog} {stateNames matrixNames : List Text} {sorted : Classification}

theorem output_produced (h : ofLog log stateNames matrixNames = .ok sorted) {output : Text}
    (ho : output ∈ log.outputNames) :
    output ∈ stateNames ∨ output ∈ sorted.dependents.map (·.lhs) ∨
      output ∈ sorted.outputs.map (·.lhs) := by
  obtain ⟨constants, motion, inputs, written, evaluated, -, -, -, -, -, hsort⟩ :=
    exists_sort_of_ofLog h
  obtain ⟨early, late, -, ⟨-, hcover, -⟩, rfl⟩ := exists_switch_of_sort hsort
  dsimp only
  by_contra hnone
  obtain ⟨hstate, hdependent, hother⟩ := by simpa only [not_or] using hnone
  -- What is produced in no other way is pending, and the evaluation block covers what is pending.
  have hpending : IsPending log.outputNames stateNames matrixNames motion written output := by
    refine ⟨ho, hstate, ?_, ?_⟩
    · rintro e he ha rfl
      exact hdependent (List.mem_map_of_mem (List.mem_filter.mpr ⟨he, by simpa [ha] using ho⟩))
    · rintro e he hm rfl
      refine hother (List.mem_map_of_mem (List.mem_append_left _ ?_))
      exact List.mem_filter.mpr ⟨he, by simp [hm]⟩
  obtain ⟨e, he, hm, rfl⟩ := hcover output hpending
  refine hother (List.mem_map_of_mem (List.mem_append_right _ ?_))
  exact List.mem_filter.mpr ⟨he, by simp [hm]⟩

theorem neverInvalid_parse (statement : Text) (line : Nat) :
    NeverInvalid (Equation.parse statement line) := by
  intro error h
  rw [Equation.parse] at h
  split at h
  · cases h
    rfl
  · split at h
    · cases h
      rfl
    · cases h

theorem neverInvalid_equationsIn (log : StatementLog) (s : FileSection) :
    NeverInvalid (equationsIn log s) := by
  rw [equationsIn]
  exact .mapM (log.inSection s) fun e => neverInvalid_parse e.statement e.line

theorem neverInvalid_ofLog (log : StatementLog) (stateNames matrixNames : List Text) :
    NeverInvalid (ofLog log stateNames matrixNames) := by
  rw [ofLog_eq]
  refine (neverInvalid_equationsIn log _).bind fun constants => ?_
  refine (neverInvalid_equationsIn log _).bind fun motion => ?_
  refine (neverInvalid_equationsIn log _).bind fun inputs => ?_
  refine (neverInvalid_equationsIn log _).bind fun written => ?_
  refine (neverInvalid_equationsIn log _).bind fun evaluated => ?_
  intro error h
  obtain ⟨-, rfl⟩ := (sort_eq_error_iff rfl).mp h
  rfl

end Classification

theorem StatementLog.neverInvalid_auxCount (log : StatementLog) : NeverInvalid log.auxCount := by
  intro error h
  rw [auxCount] at h
  split at h
  · cases h
  · split at h
    · cases h
    · cases h
      rfl

namespace Document

variable {name : Text} {parameters : ParameterFile} {log : StatementLog} {matrixNames : List Text}
  {sorted : Classification} {output : Text}

def assembled (name : Text) (parameters : ParameterFile) (log : StatementLog)
    (sorted : Classification) (auxCount : Nat) : Document where
  name
  integration := parameters.integration
  parameters := parameters.parameters
  states := parameters.states
  globals := log.globals
  auxCount
  constants := sorted.constants
  motion := sorted.motion
  inputs := sorted.inputs
  dependents := sorted.dependents
  outputNames := log.outputNames
  outputs := sorted.outputs
  linear := sorted.linear

theorem build_eq (name : Text) (parameters : ParameterFile) (log : StatementLog)
    (matrixNames : List Text) :
    build name parameters log matrixNames = (do
      let sorted ← Classification.ofLog log parameters.stateNames matrixNames
      let auxCount ← log.auxCount
      (assembled name parameters log sorted auxCount).validate
      .ok (assembled name parameters log sorted auxCount)) := rfl

theorem exists_produces_assembled
    (h : Classification.ofLog log parameters.stateNames matrixNames = .ok sorted)
    (ho : output ∈ log.outputNames) (auxCount : Nat) :
    ∃ kind, (assembled name parameters log sorted auxCount).Produces kind output := by
  rcases Classification.output_produced h ho with hp | hp | hp
  · exact ⟨.state, hp⟩
  · exact ⟨.dependent, hp⟩
  · exact ⟨.nonState, hp⟩

/-- Assembly sorts, counts, and is done: the document is valid. -/
theorem build_eq_of_nodup (hn : parameters.names.Nodup) (name : Text) (log : StatementLog)
    (matrixNames : List Text) :
    build name parameters log matrixNames = (do
      let sorted ← Classification.ofLog log parameters.stateNames matrixNames
      let auxCount ← log.auxCount
      .ok (assembled name parameters log sorted auxCount)) := by
  rw [build_eq]
  cases hs : Classification.ofLog log parameters.stateNames matrixNames with
  | error e => rfl
  | ok sorted =>
    cases log.auxCount with
    | error e => rfl
    | ok auxCount =>
      have hv : (assembled name parameters log sorted auxCount).validate = .ok () :=
        validate_eq_ok hn fun _ ho => exists_produces_assembled hs ho auxCount
      rw [ok_bind, ok_bind, hv]
      rfl

end Document

/-- What becomes of a parameter file and a log. -/
structure AssemblyOutcome (name : Text) (parameters : ParameterFile) (log : StatementLog)
    (matrixNames : List Text) : Prop where
  succeeds_iff : (∃ d, Document.build name parameters log matrixNames = .ok d) ↔
    (∃ sorted, Classification.ofLog log parameters.stateNames matrixNames = .ok sorted) ∧
      ∃ auxCount, log.auxCount = .ok auxCount
  sorting_fails : ∀ error,
    Classification.ofLog log parameters.stateNames matrixNames = .error error →
      Document.build name parameters log matrixNames = .error error
  counting_fails : ∀ sorted error,
    Classification.ofLog log parameters.stateNames matrixNames = .ok sorted →
      log.auxCount = .error error →
        Document.build name parameters log matrixNames = .error error
  /-- No failure is one that validation reports. -/
  never_invalid : NeverInvalid (Document.build name parameters log matrixNames)
  names_nodup : (parameters.parameters.map (·.name) ++ parameters.states.map (·.name)).Nodup
  outputs_produced : ∀ d, Document.build name parameters log matrixNames = .ok d →
    ∀ output ∈ log.outputNames, d.outputKind? output ≠ none

namespace Document

variable {settings : ExportSettings} {t : Text} {parameters : ParameterFile}

/-- With a parameter file that has been read, assembly fails only as sorting or counting does. -/
theorem build_of_readParameters (h : ParameterFile.ofText settings t = .ok parameters)
    (name : Text) (log : StatementLog) (matrixNames : List Text) :
    AssemblyOutcome name parameters log matrixNames := by
  have hn := ParameterFile.nodup_names_of_ofText h
  have hbuild := build_eq_of_nodup hn name log matrixNames
  constructor
  case succeeds_iff =>
    simp only [hbuild, bind_eq_ok_iff]
    constructor
    · rintro ⟨d, sorted, hs, auxCount, ha, -⟩
      exact ⟨⟨sorted, hs⟩, auxCount, ha⟩
    · rintro ⟨⟨sorted, hs⟩, auxCount, ha⟩
      exact ⟨_, sorted, hs, auxCount, ha, rfl⟩
  case sorting_fails =>
    intro error hs
    rw [hbuild, hs]
    rfl
  case counting_fails =>
    intro sorted error hs ha
    rw [hbuild, hs, ok_bind, ha]
    rfl
  case never_invalid =>
    rw [hbuild]
    refine (Classification.neverInvalid_ofLog log _ _).bind fun _ => ?_
    exact log.neverInvalid_auxCount.bind fun _ => .ok _
  case names_nodup => exact hn
  case outputs_produced =>
    intro d hd output ho
    simp only [hbuild, bind_eq_ok_iff] at hd
    obtain ⟨sorted, hs, auxCount, -, hd⟩ := hd
    cases hd
    rw [ne_eq, outputKind?_eq_none_iff, not_forall_not]
    exact exists_produces_assembled hs ho auxCount

end Document

def Binary64.one : Binary64 := .finite false ⟨4503599627370496, 1022, by decide⟩

def springFile : Text :=
  "Constant k N/m = 1.0\nInitial Value x UNITS = 0.0\n".toList ++
    "Initial Time TINITIAL s = 0.0\nFinal Time TFINAL s = 1.0\n".toList ++
    "Integration Step INTEGSTP s = 1.0\nAbsolute Error ABSERR = 0.0\n".toList ++
    "Relative Error RELERR = 1.0D0\n".toList

def springParameters : ParameterFile where
  integration := ⟨.zero, .one, .one, .zero, .one⟩
  parameters := [⟨"k".toList, .one, some "N/m".toList⟩]
  states := [⟨"x".toList, .zero, none⟩]

/-- A log whose outputs are a state, a dependent variable and an evaluated output. The size of its
auxiliary array cannot be read. -/
def springLog : StatementLog where
  globals := ["z[n]".toList]
  outputNames := ["x".toList, "f".toList, "e".toList]
  statements := [⟨.motion, "f = k*x".toList, 8⟩, ⟨.evaluateOutput, "e = 0.5*f*x".toList, 12⟩]

theorem build_springLog :
    ParameterFile.ofText { parameterHeader := 0 } springFile = .ok springParameters ∧
      AssemblyOutcome "Spring".toList springParameters springLog defaultMatrixNames ∧
      AssemblyOutcome "Spring".toList springParameters { springLog with globals := [] }
        defaultMatrixNames := by
  have h : ParameterFile.ofText { parameterHeader := 0 } springFile = .ok springParameters := by
    decide +kernel
  exact ⟨h, Document.build_of_readParameters h "Spring".toList springLog defaultMatrixNames,
    Document.build_of_readParameters h "Spring".toList { springLog with globals := [] }
      defaultMatrixNames⟩

end MotionExport
