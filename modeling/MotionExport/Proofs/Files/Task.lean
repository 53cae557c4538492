import MotionExport.Files.Tree

/-! # File tasks

A computation that works on files, as the accesses that it makes one after the other. What comes
next depends on the outcome of each access. A write replaces the content of a file, or it fails and
changes nothing.
-/

namespace MotionExport

inductive FileAccess where
  | read (path : Text)
  | write (path text : Text)
  deriving DecidableEq

inductive FileTask (α : Type) where
  | done (result : α)
  | read (path : Text) (next : Except FileFailure Text → FileTask α)
  | write (path text : Text) (next : Except FileFailure Unit → FileTask α)

/-- Why a file cannot be written although the tree has a place for it. -/
abbrev Refusal := Text → Option FileFailure

def FileTree.writeUnless (refusal : Refusal) (tree : FileTree) (path text : Text) :
    Except FileFailure FileTree :=
  match refusal path with
  | some failure => .error failure
  | none => tree.write path (.file text)

/-- What a task leaves behind: its result, the accesses it made, and the tree. -/
structure Execution (α : Type) where
  result : α
  accesses : List FileAccess
  after : FileTree

namespace FileTask

variable {α β ε : Type} {refusal : Refusal} {tree : FileTree}

def run (refusal : Refusal) : FileTask α → FileTree → Execution α
  | done result, tree => ⟨result, [], tree⟩
  | read path next, tree =>
    let rest := (next (tree.read path)).run refusal tree
    { rest with accesses := .read path :: rest.accesses }
  | write path text next, tree =>
    let rest :=
      match tree.writeUnless refusal path text with
      | .ok after => (next (.ok ())).run refusal after
      | .error failure => (next (.error failure)).run refusal tree
    { rest with accesses := .write path text :: rest.accesses }

def attempt (x : Except ε α) (next : α → FileTask (Except ε β)) : FileTask (Except ε β) :=
  match x with
  | .ok a => next a
  | .error e => done (.error e)

theorem run_read (path : Text) (next : Except FileFailure Text → FileTask α) :
    (read path next).run refusal tree =
      { (next (tree.read path)).run refusal tree with
        accesses := .read path :: ((next (tree.read path)).run refusal tree).accesses } := rfl

theorem run_write_ok {path text : Text} {next : Except FileFailure Unit → FileTask α}
    {after : FileTree} (h : tree.writeUnless refusal path text = .ok after) :
    (write path text next).run refusal tree =
      { (next (.ok ())).run refusal after with
        accesses := .write path text :: ((next (.ok ())).run refusal after).accesses } := by
  rw [run, h]

theorem run_write_error {path text : Text} {next : Except FileFailure Unit → FileTask α}
    {failure : FileFailure} (h : tree.writeUnless refusal path text = .error failure) :
    (write path text next).run refusal tree =
      { (next (.error failure)).run refusal tree with
        accesses := .write path text :: ((next (.error failure)).run refusal tree).accesses } := by
  rw [run, h]

end FileTask

end MotionExport
