import Mathlib.Data.List.Basic
import MotionExport.Files.Tree
import MotionExport.Proofs.Outcome
import MotionExport.Proofs.Text.Ending

/-! # Places

Where a path leads to. A file that is written where no directory stands leaves all other places as
they were, so a path that could be followed before still leads to the same place.
-/

namespace MotionExport

namespace Text

theorem exists_splitOn_append {a : Char} {s : Text} (h : a ∉ s) (t : Text) :
    ∃ pieces last, t.splitOn a = pieces ++ [last] ∧
      (t ++ s).splitOn a = pieces ++ [last ++ s] := by
  induction s using List.reverseRecOn with
  | nil =>
    have hlast := List.dropLast_append_getLast (List.splitOn_ne_nil a t)
    exact ⟨_, _, hlast.symm, by rw [List.append_nil, List.append_nil, hlast]⟩
  | append_singleton s c ih =>
    rw [List.mem_append, List.mem_singleton, not_or] at h
    obtain ⟨pieces, last, hs, ht⟩ := ih h.1
    obtain ⟨pieces', last', hs', ht'⟩ := splitOn_concat (t := t ++ s) (Ne.symm h.2)
    obtain ⟨rfl, rfl⟩ := List.append_singleton_inj.mp (ht.symm.trans hs')
    exact ⟨pieces, last, hs, by rw [← List.append_assoc, ht', List.append_assoc]⟩

end Text

/-- The steps to a name in a directory are the steps to the directory and the name. A slash at the
end of the directory is a step that stays where it is. -/
theorem exists_splitOn_joinPath {name : Text} (hn : '/' ∉ name) (directory : Text) :
    ∃ steps, (joinPath directory name).splitOn '/' = steps ++ [name] ∧
      (directory.splitOn '/' = steps ∨ directory.splitOn '/' = steps ++ [[]]) := by
  have hstart : name.startsWith ['/'] = false := by
    rw [Text.startsWith, Bool.eq_false_iff]
    intro h
    exact hn ((List.isPrefixOf_iff_prefix.mp h).subset List.mem_cons_self)
  have hname : name.splitOn '/' = [name] := List.splitOn_eq_singleton hn
  rw [joinPath, hstart, if_neg Bool.false_ne_true]
  split
  · rename_i h
    rcases h with rfl | h
    · exact ⟨[], by simp [hname], .inr (List.splitOn_nil '/')⟩
    · obtain ⟨d, rfl⟩ := Text.endsWith_iff.mp h
      refine ⟨d.splitOn '/', ?_, .inr ?_⟩
      · rw [List.append_assoc, List.singleton_append, List.splitOn_append_cons_self, hname]
      · rw [List.splitOn_append_cons_self, List.splitOn_nil]
  · refine ⟨directory.splitOn '/', ?_, .inl rfl⟩
    rw [List.append_assoc, List.singleton_append, List.splitOn_append_cons_self, hname]

theorem joinPath_ne_nil {name : Text} (hn : '/' ∉ name) (hne : name ≠ []) (directory : Text) :
    joinPath directory name ≠ [] := by
  intro h
  obtain ⟨steps, hpath, -⟩ := exists_splitOn_joinPath hn directory
  rw [h, List.splitOn_nil] at hpath
  obtain ⟨-, rfl⟩ := List.append_singleton_inj.mp (hpath.symm.trans (List.nil_append _).symm)
  exact hne rfl

namespace FileTree

variable {tree : FileTree} {here place parent : List Text} {path directory name : Text}

/-- A name that stands for an entry of its directory: it is not empty, and no point or two points
that stay or go up. -/
def IsEntryName (name : Text) : Prop := name ≠ [] ∧ name ≠ ['.'] ∧ name ≠ ['.', '.']

def LeadsTo (tree : FileTree) (path : Text) (place : List Text) : Prop :=
  tree.follow [] (path.splitOn '/') = .ok place

theorem follow_append (tree : FileTree) (here : List Text) (steps steps' : List Text) :
    tree.follow here (steps ++ steps') =
      (tree.follow here steps >>= fun place => tree.follow place steps') := by
  induction steps generalizing here with
  | nil => rfl
  | cons step steps ih =>
    simp only [List.cons_append, follow]
    split
    · rfl
    split
    · exact ih here
    split
    · exact ih here.dropLast
    split
    · rfl
    · exact ih (here ++ [step])

theorem follow_entry (hn : IsEntryName name) :
    tree.follow here [name] = .ok place ↔
      tree.lookup here = some .directory ∧ (tree.lookup (here ++ [name])).isSome ∧
        place = here ++ [name] := by
  obtain ⟨hempty, hpoint, hpoints⟩ := hn
  by_cases hd : tree.lookup here = some .directory
  · cases hs : tree.lookup (here ++ [name]) <;>
      simp [follow, hd, hs, hempty, hpoint, hpoints, eq_comm]
  · simp [follow, hd]

theorem follow_empty :
    tree.follow here [[]] = .ok place ↔ tree.lookup here = some .directory ∧ place = here := by
  by_cases hd : tree.lookup here = some .directory <;> simp [follow, hd, eq_comm]

theorem LeadsTo.exists_last {ending : Text} (h : tree.LeadsTo (path ++ ending) place)
    (hslash : '/' ∉ ending) (hentry : ∀ stem, IsEntryName (stem ++ ending)) :
    ∃ parent stem, place = parent ++ [stem ++ ending] := by
  obtain ⟨steps, stem, -, hsteps⟩ := Text.exists_splitOn_append hslash path
  rw [LeadsTo, hsteps, follow_append] at h
  obtain ⟨parent, -, h⟩ := bind_eq_ok_iff.mp h
  exact ⟨parent, stem, ((follow_entry (hentry stem)).mp h).2.2⟩

/-- A slash at the end of a path to a directory makes no difference. -/
theorem leadsTo_directory_iff {steps : List Text}
    (h : directory.splitOn '/' = steps ∨ directory.splitOn '/' = steps ++ [[]]) :
    tree.LeadsTo directory parent ∧ tree.lookup parent = some .directory ↔
      tree.follow [] steps = .ok parent ∧ tree.lookup parent = some .directory := by
  rw [LeadsTo]
  rcases h with h | h
  · rw [h]
  · rw [h, follow_append, bind_eq_ok_iff]
    simp only [follow_empty]
    constructor
    · rintro ⟨⟨_, hsteps, -, rfl⟩, hlookup⟩
      exact ⟨hsteps, hlookup⟩
    · rintro ⟨hsteps, hlookup⟩
      exact ⟨⟨parent, hsteps, hlookup, rfl⟩, hlookup⟩

theorem placeToWrite_joinPath (hslash : '/' ∉ name) (hn : IsEntryName name) :
    tree.placeToWrite (joinPath directory name) = .ok place ↔
      ∃ parent, tree.LeadsTo directory parent ∧ tree.lookup parent = some .directory ∧
        place = parent ++ [name] ∧ tree.lookup place ≠ some .directory := by
  obtain ⟨steps, hpath, hdirectory⟩ := exists_splitOn_joinPath hslash directory
  obtain ⟨hempty, hpoint, hpoints⟩ := hn
  have hne := joinPath_ne_nil hslash hempty directory
  have hend : (joinPath directory name).endsWith '/' = false := by
    rw [Bool.eq_false_iff]
    intro h
    obtain ⟨p, hp⟩ := Text.endsWith_iff.mp h
    rw [hp, List.splitOn_append_cons_self, List.splitOn_nil] at hpath
    obtain ⟨-, rfl⟩ := List.append_singleton_inj.mp hpath
    exact hempty rfl
  have hsteps : ((joinPath directory name).splitOn '/').reverse.dropWhile (· = []) =
      name :: steps.reverse := by
    rw [hpath, List.reverse_append, List.reverse_singleton, List.singleton_append,
      List.dropWhile_cons_of_neg (by simpa using hempty)]
  rw [placeToWrite, if_neg hne, hsteps]
  simp only [List.reverse_reverse, bind_eq_ok_iff, hend, Bool.false_eq_true, or_false, hpoint,
    hpoints, if_false]
  constructor
  · rintro ⟨parent, hfollow, h⟩
    split at h
    · contradiction
    rename_i hd
    split at h <;> cases h
    rename_i hplace
    obtain ⟨hleads, hd⟩ := (leadsTo_directory_iff hdirectory).mpr ⟨hfollow, not_not.mp hd⟩
    exact ⟨parent, hleads, hd, rfl, hplace⟩
  · rintro ⟨parent, hleads, hd, rfl, hplace⟩
    obtain ⟨hfollow, hd⟩ := (leadsTo_directory_iff hdirectory).mp ⟨hleads, hd⟩
    exact ⟨parent, hfollow, by rw [if_neg (not_not_intro hd), if_neg hplace]⟩

theorem leadsTo_joinPath (hslash : '/' ∉ name) (hn : IsEntryName name)
    (hdirectory : tree.LeadsTo directory parent) (hparent : tree.lookup parent = some .directory)
    (hsome : (tree.lookup (parent ++ [name])).isSome) :
    tree.LeadsTo (joinPath directory name) (parent ++ [name]) := by
  obtain ⟨steps, hpath, h⟩ := exists_splitOn_joinPath hslash directory
  obtain ⟨hsteps, -⟩ := (leadsTo_directory_iff h).mp ⟨hdirectory, hparent⟩
  rw [LeadsTo, hpath, follow_append, hsteps, ok_bind]
  exact (follow_entry hn).mpr ⟨hparent, hsome, rfl⟩

section Put

variable {entry : FileEntry}

theorem lookup_put_of_directory (hplace : tree.lookup place ≠ some .directory)
    (h : tree.lookup here = some .directory) :
    (tree.put place entry).lookup here = some .directory := by
  rw [lookup_put_of_ne, h]
  rintro rfl
  exact hplace h

theorem ne_nil_of_lookup (h : tree.lookup place ≠ some .directory) : place ≠ [] := by
  rintro rfl
  exact h (by rw [lookup, if_pos rfl])

/-- What could be followed can still be followed when an entry is put where no directory is. -/
theorem follow_put (hplace : tree.lookup place ≠ some .directory) {steps : List Text}
    {goal : List Text} (h : tree.follow here steps = .ok goal) :
    (tree.put place entry).follow here steps = .ok goal := by
  induction steps generalizing here with
  | nil => exact h
  | cons step steps ih =>
    rw [follow] at h ⊢
    split at h
    · contradiction
    rename_i hd
    rw [if_neg (not_not_intro (lookup_put_of_directory hplace (not_not.mp hd)))]
    split at h
    · rename_i hstay
      rw [if_pos hstay]
      exact ih h
    rename_i hstay
    rw [if_neg hstay]
    split at h
    · rename_i hup
      rw [if_pos hup]
      exact ih h
    rename_i hup
    rw [if_neg hup]
    split at h
    · contradiction
    rename_i hsome
    have hkept : ¬ ((tree.put place entry).lookup (here ++ [step])).isNone := by
      by_cases he : here ++ [step] = place
      · rw [he, lookup_put_self _ _ (ne_nil_of_lookup hplace)]
        exact Bool.false_ne_true
      · rwa [lookup_put_of_ne _ _ he]
    rw [if_neg hkept]
    exact ih h

theorem LeadsTo.put (h : tree.LeadsTo path here) (hplace : tree.lookup place ≠ some .directory) :
    (tree.put place entry).LeadsTo path here := follow_put hplace h

end Put

theorem read_eq_ok_iff {content : Text} :
    tree.read path = .ok content ↔
      path ≠ [] ∧ ∃ place, tree.LeadsTo path place ∧ tree.lookup place = some (.file content) := by
  rw [read]
  split
  · rename_i h
    simp [h]
  · rename_i hpath
    rw [bind_eq_ok_iff]
    constructor
    · rintro ⟨place, hplace, h⟩
      refine ⟨hpath, place, hplace, ?_⟩
      split at h <;> cases h
      assumption
    · rintro ⟨-, place, hplace, h⟩
      exact ⟨place, hplace, by rw [h]⟩

theorem read_put {entry : FileEntry} {content : Text} (h : tree.read path = .ok content)
    (hplace : tree.lookup place ≠ some .directory) (hne : ¬ tree.LeadsTo path place) :
    (tree.put place entry).read path = .ok content := by
  obtain ⟨hpath, other, hother, hfile⟩ := read_eq_ok_iff.mp h
  refine read_eq_ok_iff.mpr ⟨hpath, other, hother.put hplace, ?_⟩
  rw [lookup_put_of_ne, hfile]
  rintro rfl
  exact hne hother

end FileTree

end MotionExport
