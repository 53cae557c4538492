import MotionExport.Conversion
import MotionExport.Proofs.Export.ParameterWords
import MotionExport.Proofs.Model.OutputResolution

/-! # Extraction

What there must have been for a document to be extracted: a class name, two files that could be
read, and parameters and an equation log that make the document.
-/

namespace MotionExport

theorem Token.isBlank_of_continuesIdentifier {a : Char} (h : continuesIdentifier a = true) :
    isBlank a = false := by
  have hlist : ∀ n ∈ blankCodePoints, continuesIdentifier (Char.ofNat n) = false := by decide
  rw [Bool.eq_false_iff]
  intro hblank
  have hfalse := hlist a.toNat (List.contains_iff_mem.mp hblank)
  rw [Char.ofNat_toNat, h] at hfalse
  contradiction

namespace Conversion

theorem continuesIdentifier_of_isClassName {name : Text} (h : isClassName name = true) :
    ∀ a ∈ name, Token.continuesIdentifier a = true := by
  cases name with
  | nil => exact List.forall_mem_nil _
  | cons a t =>
    rw [isClassName, Bool.and_eq_true, List.all_eq_true] at h
    refine List.forall_mem_cons.mpr ⟨?_, h.2⟩
    rw [Token.continuesIdentifier, Char.isAlphanum, Bool.or_right_comm, ← Token.startsIdentifier,
      h.1, Bool.true_or]

theorem isWord_of_isClassName {name : Text} (h : isClassName name = true) : name.IsWord := by
  refine ⟨?_, fun a ha =>
    Token.isBlank_of_continuesIdentifier (continuesIdentifier_of_isClassName h a ha)⟩
  rintro rfl
  contradiction

variable {c : Conversion} {tree : FileTree} {d : Document}

def parametersIn (c : Conversion) (file : Except FileFailure Text) :
    Except ExportError ParameterFile :=
  file.mapError (.unreadable c.parameterPath) >>= ParameterFile.ofText c.settings

def documentIn (c : Conversion) (parameters : ParameterFile) (file : Except FileFailure Text) :
    Except ExportError Document := do
  let log ← StatementLog.ofText c.settings (← file.mapError (.unreadable c.equationPath))
  Document.build c.className parameters log c.settings.matrixNames

theorem readModel_eq (c : Conversion) (tree : FileTree) :
    tree.readModel c.settings c.parameterPath c.equationPath c.className =
      (c.parametersIn (tree.read c.parameterPath) >>= fun parameters =>
        c.documentIn parameters (tree.read c.equationPath)) := by
  rw [FileTree.readModel, FileTree.readExport, parametersIn]
  cases tree.read c.parameterPath with
  | error failure => rfl
  | ok text => rfl

theorem extract_eq_ok_iff :
    tree.extract c = .ok d ↔ isClassName c.className = true ∧
      tree.readModel c.settings c.parameterPath c.equationPath c.className = .ok d := by
  rw [FileTree.extract]
  split
  · rename_i hname
    rw [mapError_eq_ok_iff]
    exact (and_iff_right hname).symm
  · rename_i hname
    simp [hname]

theorem exists_build_of_extract (h : tree.extract c = .ok d) :
    ∃ text parameters log, ParameterFile.ofText c.settings text = .ok parameters ∧
      Document.build c.className parameters log c.settings.matrixNames = .ok d := by
  obtain ⟨-, h⟩ := extract_eq_ok_iff.mp h
  rw [readModel_eq] at h
  obtain ⟨parameters, hparameters, h⟩ := bind_eq_ok_iff.mp h
  obtain ⟨text, -, htext⟩ := bind_eq_ok_iff.mp hparameters
  obtain ⟨equations, -, h⟩ := bind_eq_ok_iff.mp h
  obtain ⟨log, -, hbuild⟩ := bind_eq_ok_iff.mp h
  exact ⟨text, parameters, log, htext, hbuild⟩

theorem name_of_extract (h : tree.extract c = .ok d) : d.name = c.className := by
  obtain ⟨_, _, _, -, hbuild⟩ := exists_build_of_extract h
  obtain ⟨_, _, -, rfl⟩ := Document.exists_assembled_of_build hbuild
  rfl

theorem inWords_of_extract (h : tree.extract c = .ok d) :
    ∀ q ∈ d.parameters ++ d.states, q.InWords := by
  obtain ⟨_, _, _, hparameters, hbuild⟩ := exists_build_of_extract h
  obtain ⟨_, _, -, rfl⟩ := Document.exists_assembled_of_build hbuild
  exact ParameterFile.inWords_of_ofText hparameters

theorem exists_reads_of_extract (h : tree.extract c = .ok d) :
    ∀ input ∈ [c.parameterPath, c.equationPath], ∃ text, tree.read input = .ok text := by
  obtain ⟨-, h⟩ := extract_eq_ok_iff.mp h
  rw [readModel_eq] at h
  obtain ⟨parameters, hp, h⟩ := bind_eq_ok_iff.mp h
  obtain ⟨first, hfirst, -⟩ := bind_eq_ok_iff.mp hp
  obtain ⟨second, hsecond, -⟩ := bind_eq_ok_iff.mp h
  simp only [List.mem_cons, List.not_mem_nil, or_false, forall_eq_or_imp, forall_eq]
  exact ⟨⟨first, mapError_eq_ok_iff.mp hfirst⟩, ⟨second, mapError_eq_ok_iff.mp hsecond⟩⟩

end Conversion

end MotionExport
