import MotionExport.Code.Module
import MotionExport.Proofs.Number.Digits

/-! # Lines of method bodies

The forms of the lines that method bodies have in the two languages, character by character, and the
lines of a text that is put together from them.
-/

namespace MotionExport

namespace Code

/-- A line of a text, cut off from what is in front of it and behind it by line feeds. -/
def IsLine (line text : Text) : Prop :=
  ∃ earlier later, text = ['\n'].intercalate (earlier ++ line :: later)

def assignmentLine (lang : Language) (target value : Text) : Text :=
  match lang with
  | .rust => List.replicate 8 ' ' ++ target ++ " = ".toList ++ value ++ [';']
  | .python => List.replicate 8 ' ' ++ target ++ " = ".toList ++ value

def bindingStart (lang : Language) (name : Text) : Text :=
  match lang with
  | .rust => List.replicate 8 ' ' ++ "let ".toList ++ name ++ " = ".toList
  | .python => List.replicate 8 ' ' ++ name ++ " = ".toList

def bindingLine (lang : Language) (name value : Text) : Text :=
  match lang with
  | .rust => List.replicate 8 ' ' ++ "let ".toList ++ name ++ " = ".toList ++ value ++ [';']
  | .python => List.replicate 8 ' ' ++ name ++ " = ".toList ++ value

def declarationLine (lang : Language) (name : Text) (length : Nat) : Text :=
  match lang with
  | .rust => List.replicate 8 ' ' ++ "let mut ".toList ++ name ++ " = vec![0.0; ".toList
      ++ Nat.toDigits 10 length ++ "];".toList
  | .python => List.replicate 8 ' ' ++ name ++ " = zeros(".toList ++ Nat.toDigits 10 length
      ++ [')']

/-- The entry under a key of the parameter map. -/
def mapEntry (lang : Language) (key : Text) : Text :=
  match lang with
  | .rust => "self.parameters[\"".toList ++ key ++ "\"]".toList
  | .python => "self.parameters['".toList ++ key ++ "']".toList

variable {lang : Language} {name value line : Text} {lines : List Text}

theorem indent_assignment (lang : Language) (target value : Text) :
    List.replicate 8 ' ' ++ lang.assignment target value = assignmentLine lang target value := by
  cases lang with
  | rust => simp [Language.assignment, Language.terminator, assignmentLine]
  | python => simp [Language.assignment, Language.terminator, assignmentLine]

theorem indent_binding (lang : Language) (name value : Text) :
    List.replicate 8 ' ' ++ lang.binding name value = bindingLine lang name value := by
  cases lang with
  | rust => simp [Language.binding, Language.assignment, Language.terminator, bindingLine]
  | python => simp [Language.binding, Language.assignment, Language.terminator, bindingLine]

theorem indent_arrayDeclaration (lang : Language) (name : Text) (length : Nat) :
    List.replicate 8 ' ' ++ lang.arrayDeclaration name length =
      declarationLine lang name length := by
  unfold Language.arrayDeclaration declarationLine
  rw [numeral_eq_toDigits]
  cases lang with
  | rust => simp only [List.append_assoc]
  | python => simp only [List.append_assoc]

theorem parameterEntry_eq (lang : Language) (key : Text) :
    lang.parameterEntry key = mapEntry lang key := by
  unfold Language.parameterEntry Language.quoted mapEntry
  cases lang with
  | rust =>
    have hopening : "self.parameters[\"".toList = "self.parameters[".toList ++ ['"'] := by decide
    have hclosing : "\"]".toList = ['"'] ++ [']'] := by decide
    rw [hopening, hclosing]
    simp only [Language.quote, List.append_assoc]
  | python =>
    have hopening : "self.parameters['".toList = "self.parameters[".toList ++ ['\x27'] := by decide
    have hclosing : "']".toList = ['\x27'] ++ [']'] := by decide
    rw [hopening, hclosing]
    simp only [Language.quote, List.append_assoc]

/-- The lines of a block are those that declare its arrays, then those of one equation after the
other. -/
theorem block_eq (c : Context) (kind : BlockKind) (es : List Equation) :
    c.block kind es = ['\n'].intercalate
      ((c.localArrays es).map (fun (name, length) => declarationLine c.language name length) ++
        es.flatMap fun e => (c.statement kind e).map (List.replicate 8 ' ' ++ ·)) := by
  simp only [Context.block, Context.blockLines, indented, List.map_append, List.map_map,
    List.map_flatMap, Function.comp_def, indent_arrayDeclaration]

theorem exists_bindingLine_eq (lang : Language) : ∃ lead ending : Text, '[' ∉ lead ∧ '[' ∉ ending ∧
    (∀ name, bindingStart lang name = lead ++ name ++ " = ".toList) ∧
      ∀ name value, bindingLine lang name value = bindingStart lang name ++ value ++ ending := by
  cases lang with
  | rust =>
    exact ⟨List.replicate 8 ' ' ++ "let ".toList, [';'], by decide, by decide, fun _ => rfl,
      fun _ _ => rfl⟩
  | python =>
    refine ⟨List.replicate 8 ' ', [], by decide, by decide, fun _ => rfl, fun name value => ?_⟩
    rw [List.append_nil]
    rfl

theorem newline_not_mem_bindingLine (hname : '\n' ∉ name) (hvalue : '\n' ∉ value) :
    '\n' ∉ bindingLine lang name value := by
  cases lang with
  | rust => simp [bindingLine, hname, hvalue]
  | python => simp [bindingLine, hname, hvalue]

theorem isLine_intercalate (h : line ∈ lines) : IsLine line (['\n'].intercalate lines) := by
  obtain ⟨earlier, later, rfl⟩ := List.append_of_mem h
  exact ⟨earlier, later, rfl⟩

end Code

end MotionExport
