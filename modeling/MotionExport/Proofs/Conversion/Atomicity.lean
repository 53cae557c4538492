import MotionExport.Proofs.Conversion.Extraction
import MotionExport.Proofs.Files.Place
import MotionExport.Proofs.Files.Task

/-! # Atomicity of conversions

A conversion reads the two export files and writes the artifact, which is the last thing that it
does. Whatever goes wrong before leaves the files as they are, and what it writes is not what it
reads, so a second conversion does the same again.
-/

namespace MotionExport

namespace Conversion

open FileTask

variable {c : Conversion} {tree : FileTree} {refusal : Refusal}

def fileName (c : Conversion) : Text := c.className ++ ['.'] ++ c.target.extension

def extraction (c : Conversion) (next : Document → FileTask (Except ConversionError Text)) :
    FileTask (Except ConversionError Text) :=
  .read c.parameterPath fun file =>
    attempt ((c.parametersIn file).mapError .input) fun parameters =>
      .read c.equationPath fun file =>
        attempt ((c.documentIn parameters file).mapError .input) next

def publication (c : Conversion) (d : Document) : FileTask (Except ConversionError Text) :=
  attempt ((c.format.render d).mapError .artifact) fun text =>
    let path := c.format.pathIn c.outputDirectory d
    .write path text fun outcome =>
      .done ((outcome.mapError fun failure => .artifact (.unwritable path failure)).map
        fun _ => path)

def task (c : Conversion) : FileTask (Except ConversionError Text) :=
  if isClassName c.className then c.extraction c.publication
  else .done (.error (.invalidClassName c.className))

/-- How a conversion may end. -/
inductive Ends (refusal : Refusal) (tree : FileTree) (c : Conversion) :
    Execution (Except ConversionError Text) → Prop where

  | misnamed : isClassName c.className = false →
      Ends refusal tree c ⟨.error (.invalidClassName c.className), [], tree⟩

  | notExtracted {error : ExportError} {accesses : List FileAccess} :
      isClassName c.className = true →
      tree.readModel c.settings c.parameterPath c.equationPath c.className = .error error →
      accesses <+: [.read c.parameterPath, .read c.equationPath] →
      Ends refusal tree c ⟨.error (.input error), accesses, tree⟩

  | notRendered {document : Document} {error : ArtifactError} :
      tree.extract c = .ok document → c.format.render document = .error error →
      Ends refusal tree c
        ⟨.error (.artifact error), [.read c.parameterPath, .read c.equationPath], tree⟩

  | notWritten {document : Document} {text : Text} {failure : FileFailure} :
      tree.extract c = .ok document → c.format.render document = .ok text →
      tree.writeUnless refusal (joinPath c.outputDirectory c.fileName) text = .error failure →
      Ends refusal tree c
        ⟨.error (.artifact (.unwritable (joinPath c.outputDirectory c.fileName) failure)),
          [.read c.parameterPath, .read c.equationPath,
            .write (joinPath c.outputDirectory c.fileName) text], tree⟩

  | written {document : Document} {text : Text} {after : FileTree} :
      tree.extract c = .ok document → c.format.render document = .ok text →
      tree.writeUnless refusal (joinPath c.outputDirectory c.fileName) text = .ok after →
      Ends refusal tree c
        ⟨.ok (joinPath c.outputDirectory c.fileName),
          [.read c.parameterPath, .read c.equationPath,
            .write (joinPath c.outputDirectory c.fileName) text], after⟩

section FileNames

theorem isEntryName_concat {a : Char} (h : a ≠ '.') (t : Text) :
    FileTree.IsEntryName (t ++ [a]) := by
  have hlast : (t ++ [a]).getLast? ≠ some '.' := by
    rw [List.getLast?_concat, ne_eq, Option.some.injEq]
    exact h
  refine ⟨List.append_ne_nil_of_right_ne_nil t (List.cons_ne_nil a []), ?_, ?_⟩
  · intro hp
    exact hlast (hp ▸ rfl)
  · intro hp
    exact hlast (hp ▸ rfl)

theorem isEntryName_fileName (c : Conversion) : FileTree.IsEntryName c.fileName := by
  rw [fileName]
  obtain ⟨t, a, h, ha⟩ : ∃ t a, c.target.extension = t ++ [a] ∧ a ≠ '.' := by
    cases c.target with
    | text => exact ⟨['t', 'x'], 't', rfl, by decide⟩
    | json => exact ⟨['j', 's', 'o'], 'n', rfl, by decide⟩
    | module language =>
      cases language with
      | rust => exact ⟨['r'], 's', rfl, by decide⟩
      | python => exact ⟨['p'], 'y', rfl, by decide⟩
  rw [h, ← List.append_assoc]
  exact isEntryName_concat ha _

theorem not_mem_className (h : isClassName c.className = true) : '/' ∉ c.className :=
  fun hmem => absurd (continuesIdentifier_of_isClassName h '/' hmem) (by decide)

theorem not_mem_fileName (h : isClassName c.className = true) : '/' ∉ c.fileName := by
  have hextension : '/' ∉ ['.'] ++ c.target.extension := by
    cases c.target with
    | text => decide
    | json => decide
    | module language => cases language <;> decide
  rw [fileName, List.append_assoc, List.mem_append, not_or]
  exact ⟨not_mem_className h, hextension⟩

theorem fileName_ne (c : Conversion) (stem : Text) :
    c.fileName ≠ stem ++ ".in".toList ∧ c.fileName ≠ stem ++ ".c".toList := by
  rw [fileName]
  constructor
  all_goals
    intro h
    have hlast := congrArg List.reverse h
    cases ht : c.target with
    | text => simp [ht, Target.extension] at hlast
    | json => simp [ht, Target.extension] at hlast
    | module language => cases language <;> simp [ht, Target.extension, Language.extension] at hlast

/-- The artifact's place is not that of an export file, whatever the tree. -/
theorem not_leadsTo_of_input {input : Text} (h : input ∈ [c.parameterPath, c.equationPath])
    (other : FileTree) (directory : List Text) :
    ¬ other.LeadsTo input (directory ++ [c.fileName]) := by
  intro hleads
  simp only [List.mem_cons, List.not_mem_nil, or_false] at h
  rcases h with rfl | rfl
  · obtain ⟨parent, stem, hplace⟩ := hleads.exists_last (by decide)
      fun stem => by
        rw [show stem ++ ".in".toList = stem ++ ['.', 'i'] ++ ['n'] by simp]
        exact isEntryName_concat (by decide) _
    exact (fileName_ne c stem).1 (List.append_singleton_inj.mp hplace).2
  · obtain ⟨parent, stem, hplace⟩ := hleads.exists_last (by decide)
      fun stem => by
        rw [show stem ++ ".c".toList = stem ++ ['.'] ++ ['c'] by simp]
        exact isEntryName_concat (by decide) _
    exact (fileName_ne c stem).2 (List.append_singleton_inj.mp hplace).2

end FileNames

theorem pathIn_of_extract {d : Document} (h : tree.extract c = .ok d) :
    c.format.pathIn c.outputDirectory d = joinPath c.outputDirectory c.fileName := by
  rw [ArtifactFormat.pathIn, name_of_extract h]
  rfl

theorem ends_publication {d : Document} (h : tree.extract c = .ok d) :
    let rest := (c.publication d).run refusal tree
    Ends refusal tree c
      { rest with accesses := .read c.parameterPath :: .read c.equationPath :: rest.accesses } := by
  rw [publication, pathIn_of_extract h]
  cases hr : c.format.render d with
  | error e => exact .notRendered h hr
  | ok text =>
    cases hw : tree.writeUnless refusal (joinPath c.outputDirectory c.fileName) text with
    | error failure =>
      simp only [mapError_ok, mapError_error, attempt, run_write_error hw]
      exact .notWritten h hr hw
    | ok after =>
      simp only [mapError_ok, attempt, run_write_ok hw]
      exact .written h hr hw

/-- Every conversion ends in one of these ways. -/
theorem ends_run (refusal : Refusal) (tree : FileTree) (c : Conversion) :
    Ends refusal tree c (c.task.run refusal tree) := by
  rw [task]
  split
  swap
  · rename_i hname
    exact .misnamed (Bool.eq_false_iff.mpr hname)
  rename_i hname
  have hread := readModel_eq c tree
  rw [extraction, run_read]
  cases hp : c.parametersIn (tree.read c.parameterPath) with
  | error e =>
    rw [hp] at hread
    exact .notExtracted hname hread (List.prefix_append _ [_])
  | ok parameters =>
    rw [hp, ok_bind] at hread
    simp only [mapError_ok, attempt, run_read]
    cases hd : c.documentIn parameters (tree.read c.equationPath) with
    | error e => exact .notExtracted hname (hread.trans hd) (List.prefix_refl _)
    | ok d => exact ends_publication (extract_eq_ok_iff.mpr ⟨hname, hread.trans hd⟩)

theorem run_of_written {d : Document} {text : Text} {after : FileTree}
    (hx : tree.extract c = .ok d) (hr : c.format.render d = .ok text)
    (hw : tree.writeUnless refusal (joinPath c.outputDirectory c.fileName) text = .ok after) :
    c.task.run refusal tree =
      ⟨.ok (joinPath c.outputDirectory c.fileName),
        [.read c.parameterPath, .read c.equationPath,
          .write (joinPath c.outputDirectory c.fileName) text], after⟩ := by
  obtain ⟨hname, hread⟩ := extract_eq_ok_iff.mp hx
  generalize he : c.task.run refusal tree = execution
  cases he ▸ ends_run refusal tree c with
  | misnamed h => rw [h] at hname; contradiction
  | notExtracted _ h => rw [h] at hread; contradiction
  | notRendered hx' h => cases hx.symm.trans hx'; rw [h] at hr; contradiction
  | notWritten hx' hr' h =>
    cases hx.symm.trans hx'
    cases hr.symm.trans hr'
    rw [h] at hw
    contradiction
  | written hx' hr' h =>
    cases hx.symm.trans hx'
    cases hr.symm.trans hr'
    cases hw.symm.trans h
    rfl

/-- What is written elsewhere does not change what is extracted. -/
theorem extract_put {d : Document} {place : List Text} {entry : FileEntry}
    (h : tree.extract c = .ok d) (hplace : tree.lookup place ≠ some .directory)
    (hapart : ∀ input ∈ [c.parameterPath, c.equationPath], ¬ tree.LeadsTo input place) :
    (tree.put place entry).extract c = .ok d := by
  have hread : ∀ input ∈ [c.parameterPath, c.equationPath],
      (tree.put place entry).read input = tree.read input := by
    intro input hi
    obtain ⟨text, htext⟩ := exists_reads_of_extract h input hi
    rw [htext]
    exact FileTree.read_put htext hplace (hapart input hi)
  obtain ⟨hname, h⟩ := extract_eq_ok_iff.mp h
  refine extract_eq_ok_iff.mpr ⟨hname, ?_⟩
  rw [readModel_eq] at h ⊢
  rw [hread c.parameterPath (by simp), hread c.equationPath (by simp)]
  exact h

end Conversion

/-- What a successful conversion has done. -/
structure PublishedArtifact (refusal : Refusal) (tree : FileTree) (c : Conversion) (path : Text)
    (after : FileTree) where
  document : Document
  text : Text
  /-- The place of the output directory. -/
  directory : List Text
  path_eq : path = joinPath c.outputDirectory (c.className ++ ['.'] ++ c.target.extension)
  extracted : tree.extract c = .ok document
  rendered : c.format.render document = .ok text
  isDirectory : tree.LeadsTo c.outputDirectory directory ∧
    tree.lookup directory = some .directory
  /-- The artifact stands in the output directory itself. -/
  leadsTo : after.LeadsTo path (directory ++ [c.fileName])
  holds : after.read path = .ok text
  unchanged : ∀ place, place ≠ directory ++ [c.fileName] → after.lookup place = tree.lookup place
  apart : ∀ input ∈ [c.parameterPath, c.equationPath], ∀ other : FileTree,
    ¬ other.LeadsTo input (directory ++ [c.fileName])
  /-- A second conversion has the same result and changes nothing. -/
  again : (c.task.run refusal after).result = .ok path ∧ (c.task.run refusal after).after = after

/-- A conversion leaves the artifact, or everything as it was. -/
structure IsAtomic (refusal : Refusal) (tree : FileTree) (c : Conversion) : Prop where
  /-- The accesses of the task are those of the conversion. -/
  convert_eq : (∀ path, refusal path = none) → tree.convert c =
    (c.task.run refusal tree).result.map fun path => (path, (c.task.run refusal tree).after)
  failed : ∀ error, (c.task.run refusal tree).result = .error error →
    (c.task.run refusal tree).after = tree
  succeeded : ∀ path, (c.task.run refusal tree).result = .ok path →
    Nonempty (PublishedArtifact refusal tree c path (c.task.run refusal tree).after)
  misnamed : Conversion.isClassName c.className = false →
    c.task.run refusal tree = ⟨.error (.invalidClassName c.className), [], tree⟩
  blames_iff : ∀ error, (c.task.run refusal tree).result = .error error →
    (error.blamesInput = true ↔ Conversion.isClassName c.className = true ∧ ∃ cause,
      tree.readModel c.settings c.parameterPath c.equationPath c.className = .error cause)

namespace Conversion

variable {c : Conversion} {tree : FileTree} {refusal : Refusal}

theorem nonempty_publishedArtifact {d : Document} {text : Text} {after : FileTree}
    (hx : tree.extract c = .ok d) (hr : c.format.render d = .ok text)
    (hw : tree.writeUnless refusal (joinPath c.outputDirectory c.fileName) text = .ok after) :
    Nonempty (PublishedArtifact refusal tree c (joinPath c.outputDirectory c.fileName) after) := by
  have hslash := not_mem_fileName (extract_eq_ok_iff.mp hx).1
  have hentry := isEntryName_fileName c
  have hgranted : refusal (joinPath c.outputDirectory c.fileName) = none := by
    cases hg : refusal (joinPath c.outputDirectory c.fileName) with
    | none => rfl
    | some failure => rw [FileTree.writeUnless, hg] at hw; contradiction
  rw [FileTree.writeUnless, hgranted] at hw
  obtain ⟨place, hplace, hw⟩ := bind_eq_ok_iff.mp hw
  cases hw
  obtain ⟨directory, hleads, hdirectory, rfl, hfree⟩ :=
    (FileTree.placeToWrite_joinPath hslash hentry).mp hplace
  have hself := FileTree.lookup_put_self tree (.file text) (FileTree.ne_nil_of_lookup hfree)
  have hkept : (tree.put (directory ++ [c.fileName]) (.file text)).lookup directory =
      some .directory := FileTree.lookup_put_of_directory hfree hdirectory
  have hto := FileTree.leadsTo_joinPath hslash hentry (hleads.put hfree) hkept (by rw [hself]; rfl)
  have hapart : ∀ input ∈ [c.parameterPath, c.equationPath], ∀ other : FileTree,
      ¬ other.LeadsTo input (directory ++ [c.fileName]) :=
    fun _ hi other => not_leadsTo_of_input hi other directory
  have hagain : (tree.put (directory ++ [c.fileName]) (.file text)).writeUnless refusal
      (joinPath c.outputDirectory c.fileName) text =
        .ok (tree.put (directory ++ [c.fileName]) (.file text)) := by
    rw [FileTree.writeUnless, hgranted]
    refine bind_eq_ok_iff.mpr ⟨directory ++ [c.fileName], ?_, ?_⟩
    · exact (FileTree.placeToWrite_joinPath hslash hentry).mpr
        ⟨directory, hleads.put hfree, hkept, rfl, by rw [hself]; simp⟩
    · rw [FileTree.put_put]
  have hrun := run_of_written (extract_put hx hfree fun input hi => hapart input hi tree) hr hagain
  exact ⟨{
    document := d
    text
    directory
    path_eq := rfl
    extracted := hx
    rendered := hr
    isDirectory := ⟨hleads, hdirectory⟩
    leadsTo := hto
    holds := FileTree.read_eq_ok_iff.mpr
      ⟨joinPath_ne_nil hslash hentry.1 c.outputDirectory, _, hto, hself⟩
    unchanged := fun other ho => FileTree.lookup_put_of_ne tree _ ho
    apart := hapart
    again := by rw [hrun]; exact ⟨rfl, rfl⟩ }⟩

theorem writeDocument_eq (tree : FileTree) (f : ArtifactFormat) (directory : Text) (d : Document) :
    tree.writeDocument f directory d = (f.render d >>= fun text =>
      tree.writeArtifact (f.pathIn directory d) text >>= fun after =>
        .ok (f.pathIn directory d, after)) := rfl

namespace Ends

variable {execution : Execution (Except ConversionError Text)}

theorem convert_eq (h : Ends refusal tree c execution) (hgranted : ∀ path, refusal path = none) :
    tree.convert c = execution.result.map fun path => (path, execution.after) := by
  have hwrite (path text : Text) : tree.writeUnless refusal path text =
      tree.write path (.file text) := by
    rw [FileTree.writeUnless, hgranted]
  cases h with
  | misnamed hname =>
    rw [FileTree.convert, FileTree.extract, if_neg (Bool.eq_false_iff.mp hname)]
    rfl
  | notExtracted hname hx =>
    rw [FileTree.convert, FileTree.extract, if_pos hname, hx]
    rfl
  | notRendered hx hr =>
    rw [FileTree.convert, hx, ok_bind, FileTree.writeDocument, hr]
    rfl
  | notWritten hx hr hw =>
    rw [hwrite] at hw
    rw [FileTree.convert, hx, ok_bind, writeDocument_eq, hr, ok_bind, pathIn_of_extract hx,
      FileTree.writeArtifact, hw]
    rfl
  | written hx hr hw =>
    rw [hwrite] at hw
    rw [FileTree.convert, hx, ok_bind, writeDocument_eq, hr, ok_bind, pathIn_of_extract hx,
      FileTree.writeArtifact, hw]
    rfl

theorem after_eq (h : Ends refusal tree c execution) {error : ConversionError}
    (he : execution.result = .error error) : execution.after = tree := by
  cases h with
  | written => contradiction
  | misnamed => rfl
  | notExtracted => rfl
  | notRendered => rfl
  | notWritten => rfl

theorem blamesInput_iff (h : Ends refusal tree c execution) {error : ConversionError}
    (he : execution.result = .error error) :
    error.blamesInput = true ↔ isClassName c.className = true ∧ ∃ cause,
      tree.readModel c.settings c.parameterPath c.equationPath c.className = .error cause := by
  have hextracted {d : Document} (hx : tree.extract c = .ok d) :
      ¬ ∃ cause, tree.readModel c.settings c.parameterPath c.equationPath c.className =
        .error cause := by
    rintro ⟨cause, hc⟩
    rw [(extract_eq_ok_iff.mp hx).2] at hc
    contradiction
  cases h with
  | misnamed hname =>
    cases he
    simp [ConversionError.blamesInput, hname]
  | notExtracted hname hx =>
    cases he
    exact iff_of_true rfl ⟨hname, _, hx⟩
  | notRendered hx =>
    cases he
    exact iff_of_false Bool.false_ne_true fun h => hextracted hx h.2
  | notWritten hx =>
    cases he
    exact iff_of_false Bool.false_ne_true fun h => hextracted hx h.2
  | written => contradiction

end Ends

/-- A conversion is atomic, on every tree and whatever writes are refused. -/
theorem isAtomic (refusal : Refusal) (tree : FileTree) (c : Conversion) :
    IsAtomic refusal tree c := by
  have hends := ends_run refusal tree c
  refine ⟨hends.convert_eq, fun _ => hends.after_eq, ?_, ?_, fun _ => hends.blamesInput_iff⟩
  · intro path hpath
    generalize c.task.run refusal tree = execution at hends hpath ⊢
    cases hends with
    | written hx hr hw =>
      cases hpath
      exact nonempty_publishedArtifact hx hr hw
    | misnamed => contradiction
    | notExtracted => contradiction
    | notRendered => contradiction
    | notWritten => contradiction
  · intro hname
    rw [task, if_neg (Bool.eq_false_iff.mp hname), FileTask.run]

end Conversion

end MotionExport
