import MotionExport.Text.Basic

/-! # Rewriting rules

A rule looks at the start of a text. It is applied from left to right, and goes on behind what it
has replaced.
-/

namespace MotionExport

/-- Where a rule applies it gives what to write and how many characters that stands for. -/
abbrev RewritingRule := Text → Option (Text × Nat)

namespace RewritingRule

/-- Applies a rule wherever it can be applied; the first `covered` characters belong to a place
where it has been applied already. -/
def applyAfter (rule : RewritingRule) : Nat → Text → Text
  | _, [] => []
  | covered + 1, _ :: t => applyAfter rule covered t
  | 0, c :: t =>
    match rule (c :: t) with
    | some (new, count) => new ++ applyAfter rule (count - 1) t
    | none => c :: applyAfter rule 0 t

def apply (rule : RewritingRule) (t : Text) : Text := applyAfter rule 0 t

def literal (old new : Text) : RewritingRule := fun t =>
  if t.startsWith old then some (new, old.length) else none

end RewritingRule

end MotionExport
