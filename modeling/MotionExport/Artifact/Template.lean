import MotionExport.Artifact.Error

/-! # Templates

A template is text with slots. A slot stands between two opening and two closing braces and names
the value that takes its place. Values are put in as they are and never looked at again.
-/

namespace MotionExport

/-- A template cut at its slots: the literal text in front, the text inside the first slot, and the
template behind it. The last slot may be left open. -/
inductive Template where
  | literal (text : Text)
  | slot (text inside : Text) (rest : Template)
  | unclosed (text rest : Text)
  deriving DecidableEq

namespace Template

def opening : Text := "\x7b\x7b".toList

def closing : Text := "\x7d\x7d".toList

/-- Cuts a text at its slots; each slot closes at the first two closing braces. -/
def ofText (t : Text) : Template :=
  match _h : Text.splitOnce opening t with
  | none => .literal t
  | some (before, after) =>
    match _h' : Text.splitOnce closing after with
    | none => .unclosed before after
    | some (inside, rest) => .slot before inside (ofText rest)
termination_by t.length
decreasing_by
  have hb := congrArg List.length (Text.append_of_splitOnce _h)
  have hc := congrArg List.length (Text.append_of_splitOnce _h')
  simp only [opening, List.length_append] at hb hc
  simp at hb
  omega

def toText : Template → Text
  | literal text => text
  | slot text inside rest => text ++ opening ++ inside ++ closing ++ rest.toText
  | unclosed text rest => text ++ opening ++ rest

theorem toText_ofText (t : Text) : (ofText t).toText = t := by
  fun_induction ofText t with
  | case1 t h => rfl
  | case2 t before after h h' => exact Text.append_of_splitOnce h
  | case3 t before after h inside rest h' ih =>
    rw [toText, ih, List.append_assoc, List.append_assoc, ← List.append_assoc inside,
      Text.append_of_splitOnce h', Text.append_of_splitOnce h]

/-- Puts the first value under its trimmed key into every slot. A slot without a value is an error,
and so is one that is not closed, which is reported by its first line. -/
def fill (values : List (Text × Text)) : Template → Except ArtifactError Text
  | literal text => .ok text
  | slot text inside rest =>
    match Text.lookup? inside.trim values with
    | none => .error (.unknownSlot inside.trim)
    | some value => do
      let filled ← rest.fill values
      .ok (text ++ value ++ filled)
  | unclosed _ rest => .error (.unknownSlot (rest.lines.headD []))

end Template

end MotionExport
