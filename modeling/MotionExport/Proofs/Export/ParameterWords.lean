import MotionExport.Proofs.Export.ParameterNames
import MotionExport.Proofs.Text.Pieces

/-! # Words of a parameter file

The names and the units of a parameter file are words of its lines. They are not empty, and there is
no blank in them.
-/

namespace MotionExport

structure Quantity.InWords (q : Quantity) : Prop where
  name : q.name.IsWord
  units : ∀ units, q.units = some units → units.IsWord

namespace ParameterFile

variable {words : List Text} {line i : Nat} {name : Text} {kind : LineKind}

theorem isWord_of_unitsAt (hwords : ∀ w ∈ words, w.IsWord) {units : Text}
    (h : unitsAt words i = some units) : units.IsWord := by
  obtain ⟨hword, -⟩ := Option.filter_eq_some_iff.mp h
  exact hwords units (List.mem_of_getElem? hword)

namespace Draft

variable {d d' : Draft}

theorem isWord_of_newName (hwords : ∀ w ∈ words, w.IsWord)
    (h : d.newName words line i = .ok name) : name.IsWord := by
  obtain ⟨hget, -⟩ := newName_eq_ok_iff.mp h
  exact hwords name (List.mem_of_getElem? hget)

theorem inWords_add (hwords : ∀ w ∈ words, w.IsWord) (h : d.add words line kind = .ok d')
    (hd : ∀ q ∈ d.parameters ++ d.states, q.InWords) :
    ∀ q ∈ d'.parameters ++ d'.states, q.InWords := by
  cases kind with
  | parameter =>
    obtain ⟨name, hname, h⟩ := bind_eq_ok_iff.mp h
    obtain ⟨value, -, h⟩ := bind_eq_ok_iff.mp h
    cases h
    intro q hq
    simp only [List.mem_append, List.mem_singleton] at hd hq
    rcases hq with (hq | rfl) | hq
    · exact hd q (.inl hq)
    · exact ⟨isWord_of_newName hwords hname, fun _ => isWord_of_unitsAt hwords⟩
    · exact hd q (.inr hq)
  | state =>
    obtain ⟨name, hname, h⟩ := bind_eq_ok_iff.mp h
    obtain ⟨value, -, h⟩ := bind_eq_ok_iff.mp h
    cases h
    intro q hq
    simp only [List.mem_append, List.mem_singleton] at hd hq
    rcases hq with hq | hq | rfl
    · exact hd q (.inl hq)
    · exact hd q (.inr hq)
    · exact ⟨isWord_of_newName hwords hname, fun _ => isWord_of_unitsAt hwords⟩
  | option o =>
    obtain ⟨value, -, h⟩ := bind_eq_ok_iff.mp h
    cases h
    exact hd
  | other =>
    cases h
    exact hd

end Draft

theorem inWords_of_ofText {settings : ExportSettings} {t : Text} {p : ParameterFile}
    (h : ofText settings t = .ok p) : ∀ q ∈ p.parameters ++ p.states, q.InWords := by
  obtain ⟨d, hd, hparameters, hstates⟩ := exists_draft_of_ofText h
    (P := fun d => ∀ q ∈ d.parameters ++ d.states, q.InWords) (List.forall_mem_nil _)
    fun _ _ _ => Draft.inWords_add fun _ => Text.isWord_of_mem_words
  rw [hparameters, hstates]
  exact hd

end ParameterFile

end MotionExport
