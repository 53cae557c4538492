import Mathlib.Data.List.Nodup
import MotionExport.Export.ParameterFile
import MotionExport.Proofs.Outcome

/-! # Names of a parameter file

The constants and the states of a parameter file have names of their own. A name that has been read
before is refused, whichever of the two kinds of lines it stands in.
-/

namespace MotionExport

namespace ParameterFile

variable {words : List Text} {line i : Nat} {name : Text} {kind : LineKind}

theorem wordAt_eq_ok_iff : wordAt words line i = .ok name ↔ words[i]? = some name := by
  unfold wordAt
  split <;> simp_all

namespace Draft

variable {d d' : Draft}

theorem newName_eq_ok_iff :
    d.newName words line i = .ok name ↔ words[i]? = some name ∧ name ∉ d.names := by
  unfold newName
  rw [bind_eq_ok_iff, ← wordAt_eq_ok_iff]
  constructor
  · rintro ⟨word, hword, h⟩
    split at h
    · contradiction
    · rename_i hnew
      cases h
      exact ⟨hword, by simpa using hnew⟩
  · rintro ⟨hword, hnew⟩
    exact ⟨name, hword, if_neg (by simpa using hnew)⟩

theorem nodup_names_add (h : d.add words line kind = .ok d') (hd : d.names.Nodup) :
    d'.names.Nodup := by
  cases kind with
  | parameter =>
    obtain ⟨name, hname, h⟩ := bind_eq_ok_iff.mp h
    obtain ⟨value, -, h⟩ := bind_eq_ok_iff.mp h
    cases h
    obtain ⟨-, hnew⟩ := newName_eq_ok_iff.mp hname
    rw [names] at hd hnew ⊢
    rw [List.map_append, List.append_assoc]
    exact List.nodup_middle.mpr (List.nodup_cons.mpr ⟨hnew, hd⟩)
  | state =>
    obtain ⟨name, hname, h⟩ := bind_eq_ok_iff.mp h
    obtain ⟨value, -, h⟩ := bind_eq_ok_iff.mp h
    cases h
    obtain ⟨-, hnew⟩ := newName_eq_ok_iff.mp hname
    rw [names] at hd hnew ⊢
    rw [List.map_append, ← List.append_assoc]
    exact List.nodup_append_comm.mp (List.nodup_cons.mpr ⟨hnew, hd⟩)
  | option o =>
    obtain ⟨value, -, h⟩ := bind_eq_ok_iff.mp h
    cases h
    exact hd
  | other =>
    cases h
    exact hd

end Draft

/-- What every line keeps, a file keeps. -/
theorem scan_keeps {P : Draft → Prop}
    (hline : ∀ (d d' : Draft) (line : Line),
      d.add line.text.words line.number (.ofWords line.text.words) = .ok d' → P d → P d')
    {d d' : Draft} {lines : List Line} (h : scan d lines = .ok d') (hd : P d) : P d' := by
  induction lines generalizing d with
  | nil =>
    cases h
    exact hd
  | cons line rest ih =>
    obtain ⟨d₁, hadd, h⟩ := bind_eq_ok_iff.mp h
    have hd₁ := hline d d₁ line hadd hd
    split at h
    · cases h
      exact hd₁
    · exact ih h hd₁

theorem exists_scan_of_ofText {settings : ExportSettings} {t : Text} {p : ParameterFile}
    (h : ofText settings t = .ok p) :
    ∃ d : Draft, scan {} (Line.numbered (1 + settings.parameterHeader)
      (t.lines.drop settings.parameterHeader)) = .ok d ∧ d.integration = .ok p.integration ∧
        p.parameters = d.parameters ∧ p.states = d.states := by
  rw [ofText, ofLines] at h
  split at h
  · contradiction
  · obtain ⟨d, hscan, h⟩ := bind_eq_ok_iff.mp h
    obtain ⟨integration, hintegration, h⟩ := bind_eq_ok_iff.mp h
    cases h
    exact ⟨d, Line.drop_numbered 1 _ t.lines ▸ hscan, hintegration, rfl, rfl⟩

theorem exists_draft_of_ofText {settings : ExportSettings} {t : Text} {p : ParameterFile}
    (h : ofText settings t = .ok p) {P : Draft → Prop} (hempty : P {})
    (hline : ∀ (d d' : Draft) (line : Line),
      d.add line.text.words line.number (.ofWords line.text.words) = .ok d' → P d → P d') :
    ∃ d : Draft, P d ∧ p.parameters = d.parameters ∧ p.states = d.states := by
  obtain ⟨d, hscan, -, hparameters, hstates⟩ := exists_scan_of_ofText h
  exact ⟨d, scan_keeps hline hscan hempty, hparameters, hstates⟩

def names (p : ParameterFile) : List Text := p.parameters.map (·.name) ++ p.stateNames

theorem nodup_names_of_ofText {settings : ExportSettings} {t : Text} {p : ParameterFile}
    (h : ofText settings t = .ok p) : p.names.Nodup := by
  obtain ⟨d, hd, hparameters, hstates⟩ := exists_draft_of_ofText h
    (P := fun d => d.names.Nodup) .nil fun _ _ _ => Draft.nodup_names_add
  rw [names, stateNames, hparameters, hstates]
  exact hd

end ParameterFile

end MotionExport
