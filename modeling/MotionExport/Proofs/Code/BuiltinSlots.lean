import MotionExport.Code.BuiltinTemplate
import MotionExport.Proofs.Artifact.Decomposition

/-! # Slots of the built-in templates

The lines of the built-in templates keep their braces apart, so their texts are cut at the
placeholders that they were written with. Every placeholder has a value, whatever the document is,
and a module can always be rendered.
-/

namespace MotionExport

namespace Template

variable {a c : Char} {s t u : Text} {template : Template}

/-- Every slot is closed, and a placeholder stands in it. -/
structure Answerable (template : Template) : Prop where
  openLine?_eq : template.openLine? = none
  keys_known : ∀ key ∈ template.keys, ∃ p : Placeholder, p.key = key

theorem splitOnce_opening_cons (h : c = '\x7b' → t.head? ≠ some '\x7b') :
    Text.splitOnce opening (c :: t) =
      (Text.splitOnce opening t).map fun (before, after) => (c :: before, after) := by
  have hafter : Text.after? opening (c :: t) = none := by
    rw [Option.eq_none_iff_forall_not_mem]
    intro rest hrest
    obtain ⟨rfl, rfl⟩ := List.cons.inj (Text.after?_eq_some_iff.mp hrest)
    exact h rfl rfl
  rw [Text.splitOnce, hafter]

theorem Answerable.cons (h : (ofText t).Answerable) (hc : c = '\x7b' → t.head? ≠ some '\x7b') :
    (ofText (c :: t)).Answerable := by
  obtain ⟨hopen, hkeys⟩ := h
  rw [ofText_eq] at hopen hkeys
  rw [ofText_eq, splitOnce_opening_cons hc]
  cases hs : Text.splitOnce opening t with
  | none => exact ⟨rfl, fun _ hkey => absurd hkey List.not_mem_nil⟩
  | some pieces =>
    rw [hs] at hopen hkeys
    dsimp only [Option.map_some] at hopen hkeys ⊢
    cases hs' : Text.splitOnce closing pieces.2 with
    | none =>
      rw [hs'] at hopen
      cases hopen
    | some pieces' =>
      rw [hs'] at hopen hkeys
      exact ⟨hopen, hkeys⟩

theorem Answerable.slot (h : (ofText t).Answerable) (p : Placeholder) :
    (ofText (opening ++ p.key ++ closing ++ t)).Answerable := by
  have htrim : p.key.trim = p.key := by cases p <;> decide
  have hclosing : '\x7d' ∉ p.key := by cases p <;> decide
  have ho : Text.FirstBetween opening [] (p.key ++ closing ++ t) := fun s _ _ => s.length.zero_le
  have hc : Text.FirstBetween closing p.key t :=
    Text.firstBetween_of_splitOnce (Text.splitOnce_append hclosing ['\x7d'] t)
  have hcut : ofText (opening ++ p.key ++ closing ++ t) = .slot [] p.key (ofText t) := by
    rw [List.append_assoc, List.append_assoc, ← List.append_assoc p.key, ← ofText_slot ho hc,
      List.nil_append]
  rw [hcut]
  refine ⟨h.openLine?_eq, List.forall_mem_cons.mpr ⟨⟨p, htrim.symm⟩, h.keys_known⟩⟩

def separatesBraces : Text → Bool
  | a :: b :: t => !(a = '\x7b' && b = '\x7b') && separatesBraces (b :: t)
  | _ => true

theorem Answerable.append (h : (ofText (c :: u)).Answerable)
    (hs : separatesBraces (s ++ [c]) = true) : (ofText (s ++ c :: u)).Answerable := by
  induction s with
  | nil => exact h
  | cons a s ih =>
    cases s with
    | nil =>
      refine h.cons ?_
      rintro rfl hhead
      cases hhead
      cases hs
    | cons b s =>
      obtain ⟨hab, hs⟩ : ¬ (a = '\x7b' ∧ b = '\x7b') ∧ separatesBraces (b :: s ++ [c]) = true := by
        simpa [separatesBraces, imp_iff_not_or] using hs
      refine (ih hs).cons ?_
      rintro rfl hhead
      exact hab ⟨rfl, by simpa using hhead⟩

end Template

namespace Code

open Template

/-- The line starts with the character and keeps its opening braces apart, but for those of its
slots. The texts stand as lists of characters, which are quickly checked. -/
inductive Spaced : Char → List Piece → Prop
  | nil : Spaced '\n' []
  | text {a c : Char} {s : Text} {pieces : List Piece} : Spaced c pieces →
      separatesBraces (a :: s ++ [c]) = true →
        Spaced a (.text (String.ofList (a :: s)) :: pieces)
  | slot {c : Char} {p : Placeholder} {pieces : List Piece} : Spaced c pieces →
      Spaced '\x7b' (.slot p :: pieces)

variable {c : Char} {pieces : List Piece} {lines : List (List Piece)} {t : Text}

theorem Spaced.exists_cons (h : Spaced c pieces) (t : Text) :
    ∃ u, pieces.flatMap Piece.toText ++ '\n' :: t = c :: u := by
  cases h with
  | nil => exact ⟨t, rfl⟩
  | text _ _ =>
    rw [List.flatMap_cons, Piece.toText, String.toList_ofList, List.cons_append, List.cons_append]
    exact ⟨_, rfl⟩
  | slot _ =>
    exact ⟨_, rfl⟩

theorem Spaced.answerable (h : Spaced c pieces) (ht : (ofText t).Answerable) :
    (ofText (pieces.flatMap Piece.toText ++ '\n' :: t)).Answerable := by
  induction h with
  | nil => exact ht.cons fun hnewline => absurd hnewline (by decide)
  | @text a c s pieces hrest hs ih =>
    obtain ⟨u, hu⟩ := hrest.exists_cons t
    rw [hu] at ih
    rw [List.flatMap_cons, List.append_assoc, hu, Piece.toText, String.toList_ofList]
    exact ih.append hs
  | @slot c p pieces hrest ih =>
    rw [List.flatMap_cons, List.append_assoc]
    exact ih.slot p

theorem Spaced.forall_cons (h : Spaced c pieces) (hlines : ∀ line ∈ lines, ∃ c, Spaced c line) :
    ∀ line ∈ pieces :: lines, ∃ c, Spaced c line :=
  List.forall_mem_cons.mpr ⟨⟨c, h⟩, hlines⟩

theorem answerable_lines (h : ∀ line ∈ lines, ∃ c, Spaced c line) :
    (ofText (lines.flatMap fun line => line.flatMap Piece.toText ++ ['\n'])).Answerable := by
  induction lines with
  | nil =>
    rw [List.flatMap_nil, ofText_literal (by decide)]
    exact ⟨rfl, fun _ hkey => absurd hkey List.not_mem_nil⟩
  | cons line lines ih =>
    obtain ⟨⟨c, hline⟩, hlines⟩ := List.forall_mem_cons.mp h
    rw [List.flatMap_cons, List.append_assoc, List.singleton_append]
    exact hline.answerable (ih hlines)

theorem spaced_rustLines : ∀ line ∈ rustLines, ∃ c, Spaced c line := by
  simp only [rustLines]
  repeat' first
    | exact List.forall_mem_nil _
    | apply Spaced.forall_cons
    | exact Spaced.nil
    | apply Spaced.slot
    | apply Spaced.text
    | rfl

theorem spaced_pythonLines : ∀ line ∈ pythonLines, ∃ c, Spaced c line := by
  simp only [pythonLines]
  repeat' first
    | exact List.forall_mem_nil _
    | apply Spaced.forall_cons
    | exact Spaced.nil
    | apply Spaced.slot
    | apply Spaced.text
    | rfl

theorem answerable_builtinTemplate (lang : Language) : (builtinTemplate lang).Answerable := by
  cases lang with
  | rust => exact answerable_lines spaced_rustLines
  | python => exact answerable_lines spaced_pythonLines

theorem exists_firstValue?_values (lang : Language) (matrixNames : List Text) (d : Document)
    (p : Placeholder) : ∃ value, firstValue? (values lang matrixNames d) p.key = some value := by
  have hlisted : (p.key, value lang matrixNames d p) ∈ values lang matrixNames d :=
    List.mem_map_of_mem p.mem_all
  have hfound : ((values lang matrixNames d).find? fun entry => entry.1 = p.key).isSome = true :=
    List.find?_isSome.mpr ⟨_, hlisted, decide_eq_true rfl⟩
  obtain ⟨entry, hentry⟩ := Option.isSome_iff_exists.mp hfound
  exact ⟨entry.2, by rw [firstValue?, hentry, Option.map_some]⟩

/-- No slot of a built-in template is without a value. -/
theorem offences_builtinTemplate (lang other : Language) (matrixNames : List Text) (d : Document) :
    (builtinTemplate other).offences (values lang matrixNames d) = [] := by
  obtain ⟨hopen, hkeys⟩ := answerable_builtinTemplate other
  rw [offences, hopen, Option.toList_none, List.append_nil, List.filter_eq_nil_iff]
  intro key hkey
  obtain ⟨p, rfl⟩ := hkeys key hkey
  obtain ⟨value, hvalue⟩ := exists_firstValue?_values lang matrixNames d p
  simp [hvalue]

end Code

open Template

/-- A template text has one leftmost decomposition, and filling goes through it once: it succeeds
with the values put between the literal texts, or names the first slot that cannot be filled. With
the values of a document, whatever it is, both built-in templates can be filled. -/
theorem templates_filled_once (t : Text) :
    (∃! template : Template, template.toText = t ∧ template.IsLeftmost) ∧
      (ofText t).toText = t ∧ (ofText t).IsLeftmost ∧
      (∀ text ∈ (ofText t).literals, ¬ opening <:+: text) ∧
      (∀ values, (ofText t).fill values =
        match ((ofText t).offences values).head? with
        | none => .ok ((ofText t).assemble fun key => (firstValue? values key).getD [])
        | some offence => .error (.unknownSlot offence)) ∧
      ∀ (lang other : Language) (matrixNames : List Text) (d : Document),
        Code.render lang (Code.builtinTemplate other) matrixNames d =
          .ok ((Code.builtinTemplate other).assemble fun key =>
            (firstValue? (Code.values lang matrixNames d) key).getD []) := by
  refine ⟨existsUnique_leftmost t, toText_ofText t, isLeftmost_ofText t,
    (isLeftmost_ofText t).not_mem_literals, fun values => fill_eq values (ofText t), ?_⟩
  intro lang other matrixNames d
  rw [Code.render, fill_eq, Code.offences_builtinTemplate]
  rfl

end MotionExport
