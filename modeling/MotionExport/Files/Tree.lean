import MotionExport.Files.Failure

/-! # File trees

A directory with all that is below it. A path is a text whose names are separated by slashes; it is
followed from the top of the tree, name by name, and every name but the last must be a directory.
-/

namespace MotionExport

/-- A file holds a text, or bytes that are none. -/
inductive FileEntry where
  | file (content : Text)
  | binary
  | directory
  deriving DecidableEq

/-- The entries below the top, each under the names that lead to it. -/
structure FileTree where
  entries : List (List Text × FileEntry)
  deriving DecidableEq

namespace FileTree

def empty : FileTree := ⟨[]⟩

def lookup (tree : FileTree) (names : List Text) : Option FileEntry :=
  if names = [] then some .directory
  else (tree.entries.find? fun e => e.1 = names).map (·.2)

def put (tree : FileTree) (names : List Text) (entry : FileEntry) : FileTree :=
  if tree.entries.any fun e => e.1 = names then
    ⟨tree.entries.map fun e => if e.1 = names then (names, entry) else e⟩
  else ⟨tree.entries ++ [(names, entry)]⟩

section Put

variable (tree : FileTree) {names other : List Text} (entry : FileEntry)

theorem lookup_put_self (h : names ≠ []) : (tree.put names entry).lookup names = some entry := by
  have found (entries : List (List Text × FileEntry)) (h : entries.any fun e => e.1 = names) :
      ((entries.map fun e => if e.1 = names then (names, entry) else e).find?
        fun e => e.1 = names).map (·.2) = some entry := by
    induction entries with
    | nil => simp at h
    | cons e entries ih =>
      by_cases he : e.1 = names
      · simp [he]
      · rw [List.any_cons, decide_eq_false he, Bool.false_or] at h
        rw [List.map_cons, if_neg he, List.find?_cons_of_neg (by simpa using he), ih h]
  simp only [lookup, h, if_false, put]
  split
  · rename_i hany
    exact found _ hany
  · rename_i hany
    have absent : (tree.entries.find? fun e => e.1 = names) = none :=
      List.find?_eq_none.mpr fun e he hn => hany (List.any_eq_true.mpr ⟨e, he, hn⟩)
    rw [List.find?_append, absent]
    simp

theorem lookup_put_of_ne (h : other ≠ names) :
    (tree.put names entry).lookup other = tree.lookup other := by
  have kept (entries : List (List Text × FileEntry)) :
      (entries.map fun e => if e.1 = names then (names, entry) else e).find? (fun e => e.1 = other)
        = entries.find? fun e => e.1 = other := by
    induction entries with
    | nil => rfl
    | cons e entries ih =>
      by_cases he : e.1 = names
      · simp [he, Ne.symm h, ih]
      · simp [he, ih, List.find?_cons]
  simp only [lookup, put]
  split
  · rfl
  split
  · rw [kept]
  · simp [List.find?_append, Ne.symm h]

theorem put_put : (tree.put names entry).put names entry = tree.put names entry := by
  by_cases hany : (tree.entries.any fun e => e.1 = names) = true
  · have again : ((tree.entries.map fun e => if e.1 = names then (names, entry) else e).any
        fun e => e.1 = names) = true := by
      obtain ⟨e, he, hn⟩ := List.any_eq_true.mp hany
      exact List.any_eq_true.mpr ⟨(names, entry), List.mem_map.mpr ⟨e, he, by simp_all⟩, by simp⟩
    simp only [put, hany, again, if_true, List.map_map, FileTree.mk.injEq]
    refine List.map_congr_left fun e _ => ?_
    by_cases he : e.1 = names <;> simp [he]
  · have absent : ∀ e ∈ tree.entries, e.1 ≠ names := fun e he hn =>
      hany (List.any_eq_true.mpr ⟨e, he, decide_eq_true hn⟩)
    have again : ((tree.entries ++ [(names, entry)]).any fun e => e.1 = names) = true := by simp
    simp only [put, hany, again, if_true, Bool.false_eq_true, if_false, FileTree.mk.injEq]
    rw [List.map_append, List.map_congr_left fun e he => if_neg (absent e he)]
    simp

end Put

/-- Follows the steps of a path from the place `here`. An empty step and a point stay where they
are, and two points go up. -/
def follow (tree : FileTree) (here : List Text) : List Text → Except FileFailure (List Text)
  | [] => .ok here
  | step :: steps =>
    if tree.lookup here ≠ some .directory then .error .notDirectory
    else if step = [] ∨ step = ['.'] then follow tree here steps
    else if step = ['.', '.'] then follow tree here.dropLast steps
    else if (tree.lookup (here ++ [step])).isNone then .error .missing
    else follow tree (here ++ [step]) steps

def read (tree : FileTree) (path : Text) : Except FileFailure Text :=
  if path = [] then .error .missing
  else do
    let place ← tree.follow [] (path.splitOn '/')
    match tree.lookup place with
    | some (.file content) => .ok content
    | some .binary => .error .notText
    | some .directory => .error .isDirectory
    | none => .error .missing

/-- The place of a file that may be written at a path: a file or nothing, in a directory. -/
def placeToWrite (tree : FileTree) (path : Text) : Except FileFailure (List Text) :=
  if path = [] then .error .missing
  else
    let steps := (path.splitOn '/').reverse.dropWhile (· = [])
    match steps with
    | [] => .error .isDirectory
    | name :: parents => do
      let parent ← tree.follow [] parents.reverse
      if tree.lookup parent ≠ some .directory then .error .notDirectory
      else if name = ['.'] ∨ name = ['.', '.'] ∨ path.endsWith '/' then .error .isDirectory
      else if tree.lookup (parent ++ [name]) = some .directory then .error .isDirectory
      else .ok (parent ++ [name])

def write (tree : FileTree) (path : Text) (entry : FileEntry) : Except FileFailure FileTree := do
  let place ← tree.placeToWrite path
  .ok (tree.put place entry)

def makeSteps (tree : FileTree) (here : List Text) : List Text → Except FileFailure FileTree
  | [] => .ok tree
  | step :: steps =>
    if step = [] ∨ step = ['.'] then makeSteps tree here steps
    else if step = ['.', '.'] then makeSteps tree here.dropLast steps
    else
      match tree.lookup (here ++ [step]) with
      | some .directory => makeSteps tree (here ++ [step]) steps
      | some _ => .error .notDirectory
      | none => makeSteps (tree.put (here ++ [step]) .directory) (here ++ [step]) steps

def makeDirectory (tree : FileTree) (path : Text) : Except FileFailure FileTree :=
  tree.makeSteps [] (path.splitOn '/')

def listing (tree : FileTree) : List Text :=
  let paths := tree.entries.map fun (names, entry) =>
    ['/'].intercalate names ++ if entry = .directory then ['/'] else []
  paths.mergeSort fun a b => decide (List.le a b)

end FileTree

namespace FileEntry

def ofBytes (bytes : List UInt8) : FileEntry :=
  match String.fromUTF8? ⟨bytes.toArray⟩ with
  | some s => file s.toList
  | none => binary

end FileEntry

/-- The path of a name in a directory. No directory, a name that starts at the top, and a directory
with a slash at its end need no slash between them. -/
def joinPath (directory name : Text) : Text :=
  if name.startsWith ['/'] then name
  else if directory = [] ∨ directory.endsWith '/' then directory ++ name
  else directory ++ ['/'] ++ name

end MotionExport
