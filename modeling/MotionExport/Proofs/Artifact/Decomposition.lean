import MotionExport.Artifact.Template
import MotionExport.Proofs.Text.Pieces

/-! # Decomposition of templates

A template text has one leftmost decomposition: every slot opens at the first two opening braces
behind the slot before it and closes at the first two closing braces behind its opening. Filling
goes through this decomposition once. It puts the literal texts and the values of the slots one
behind the other, or names the first slot that cannot be filled.
-/

namespace MotionExport

namespace Text

variable {separator before after before' after' t : Text}

/-- Between `before` and `after` the separator stands for the first time. -/
def FirstBetween (separator before after : Text) : Prop :=
  ∀ s t, s ++ separator ++ t = before ++ separator ++ after → before.length ≤ s.length

theorem FirstBetween.unique (h : FirstBetween separator before after)
    (h' : FirstBetween separator before' after')
    (heq : before ++ separator ++ after = before' ++ separator ++ after') :
    before = before' ∧ after = after' := by
  have hlen : before.length = before'.length :=
    Nat.le_antisymm (h _ _ heq.symm) (h' _ _ heq)
  rw [List.append_assoc, List.append_assoc] at heq
  obtain ⟨hbefore, hafter⟩ := List.append_inj heq hlen
  exact ⟨hbefore, List.append_cancel_left hafter⟩

theorem FirstBetween.not_mem_before (h : FirstBetween separator before after)
    (hs : separator ≠ []) :
    ¬ separator <:+: before := by
  rintro ⟨s, t, rfl⟩
  have hle := h s (t ++ separator ++ after) (by simp)
  have hpos := List.length_pos_iff.mpr hs
  simp only [List.length_append] at hle
  omega

theorem splitOnce_eq_none_iff : splitOnce separator t = none ↔ ¬ separator <:+: t := by
  induction t with
  | nil => by_cases h : separator = [] <;> simp [splitOnce, h]
  | cons c t ih =>
    rw [splitOnce, List.infix_cons_iff, not_or, ← ih]
    cases hafter : after? separator (c :: t) with
    | some rest =>
      have hstarts : separator <+: c :: t := ⟨rest, after?_eq_some_iff.mp hafter⟩
      simp [hstarts]
    | none =>
      have hstarts : ¬ separator <+: c :: t := by
        rintro ⟨rest, hrest⟩
        rw [after?_eq_some_iff.mpr hrest] at hafter
        contradiction
      simp [hstarts]

theorem firstBetween_of_splitOnce (h : splitOnce separator t = some (before, after)) :
    FirstBetween separator before after := by
  induction t generalizing before with
  | nil =>
    obtain ⟨-, rfl, -⟩ : separator = [] ∧ [] = before ∧ [] = after := by
      by_cases hs : separator = [] <;> simp_all [splitOnce]
    exact fun s _ _ => Nat.zero_le s.length
  | cons c t ih =>
    rw [splitOnce] at h
    cases hafter : after? separator (c :: t) with
    | some rest =>
      obtain ⟨rfl, -⟩ : [] = before ∧ rest = after := by simpa [hafter] using h
      exact fun s _ _ => Nat.zero_le s.length
    | none =>
      obtain ⟨first, hsplit, rfl⟩ :
          ∃ first, splitOnce separator t = some (first, after) ∧ c :: first = before := by
        simpa [hafter] using h
      intro s rest hrest
      rw [List.cons_append, List.cons_append, append_of_splitOnce hsplit] at hrest
      cases s with
      | nil =>
        rw [List.nil_append] at hrest
        rw [after?_eq_some_iff.mpr hrest] at hafter
        contradiction
      | cons d s =>
        rw [List.cons_append, List.cons_append, List.cons.injEq] at hrest
        rw [List.length_cons, List.length_cons]
        exact Nat.succ_le_succ (ih hsplit s rest (hrest.2.trans (append_of_splitOnce hsplit).symm))

theorem splitOnce_eq_some_iff : splitOnce separator t = some (before, after) ↔
    before ++ separator ++ after = t ∧ FirstBetween separator before after := by
  constructor
  · exact fun h => ⟨append_of_splitOnce h, firstBetween_of_splitOnce h⟩
  · rintro ⟨rfl, h⟩
    cases hsplit : splitOnce separator (before ++ separator ++ after) with
    | none => exact absurd ⟨before, after, rfl⟩ (splitOnce_eq_none_iff.mp hsplit)
    | some pieces =>
      obtain ⟨hbefore, hafter⟩ :=
        (firstBetween_of_splitOnce hsplit).unique h (append_of_splitOnce hsplit)
      rw [← hbefore, ← hafter]

end Text

namespace Template

open Text (FirstBetween)

variable {t : Text} {template : Template}

/-- Every slot opens and closes as early as it can. -/
def IsLeftmost : Template → Prop
  | literal text => ¬ opening <:+: text
  | slot text inside rest =>
    FirstBetween opening text (inside ++ closing ++ rest.toText) ∧
      FirstBetween closing inside rest.toText ∧ rest.IsLeftmost
  | unclosed text rest => FirstBetween opening text rest ∧ ¬ closing <:+: rest

def literals : Template → List Text
  | literal text => [text]
  | slot text _ rest => text :: rest.literals
  | unclosed text _ => [text]

def keys : Template → List Text
  | literal _ => []
  | slot _ inside rest => inside.trim :: rest.keys
  | unclosed _ _ => []

/-- The first line behind the slot that is left open. -/
def openLine? : Template → Option Text
  | literal _ => none
  | slot _ _ rest => rest.openLine?
  | unclosed _ rest => some (rest.lines.headD [])

theorem isLeftmost_ofText (t : Text) : (ofText t).IsLeftmost := by
  fun_induction ofText t with
  | case1 t h => exact Text.splitOnce_eq_none_iff.mp h
  | case2 t before after h h' =>
    exact ⟨Text.firstBetween_of_splitOnce h, Text.splitOnce_eq_none_iff.mp h'⟩
  | case3 t before after h inside rest h' ih =>
    refine ⟨?_, ?_, ih⟩
    · rw [toText_ofText, Text.append_of_splitOnce h']
      exact Text.firstBetween_of_splitOnce h
    · rw [toText_ofText]
      exact Text.firstBetween_of_splitOnce h'

theorem ofText_eq (t : Text) : ofText t =
    match Text.splitOnce opening t with
    | none => literal t
    | some (before, after) =>
      match Text.splitOnce closing after with
      | none => unclosed before after
      | some (inside, rest) => slot before inside (ofText rest) := by
  fun_cases ofText t with
  | case1 h => rw [h]
  | case2 before after h h' => simp only [h, h']
  | case3 before after h inside rest h' => simp only [h, h']

theorem ofText_literal (h : ¬ opening <:+: t) : ofText t = literal t := by
  rw [ofText_eq, Text.splitOnce_eq_none_iff.mpr h]

theorem ofText_slot {text inside rest : Text}
    (ho : FirstBetween opening text (inside ++ closing ++ rest))
    (hc : FirstBetween closing inside rest) :
    ofText (text ++ opening ++ (inside ++ closing ++ rest)) = slot text inside (ofText rest) := by
  have hopen := Text.splitOnce_eq_some_iff.mpr ⟨rfl, ho⟩
  have hclose := Text.splitOnce_eq_some_iff.mpr ⟨rfl, hc⟩
  rw [ofText_eq, hopen]
  simp only [hclose]

theorem ofText_unclosed {text rest : Text} (ho : FirstBetween opening text rest)
    (hc : ¬ closing <:+: rest) : ofText (text ++ opening ++ rest) = unclosed text rest := by
  have hopen := Text.splitOnce_eq_some_iff.mpr ⟨rfl, ho⟩
  have hclose := Text.splitOnce_eq_none_iff.mpr hc
  rw [ofText_eq, hopen]
  simp only [hclose]

/-- A leftmost decomposition is the one that its text is cut into. -/
theorem IsLeftmost.ofText_toText (h : template.IsLeftmost) : ofText template.toText = template := by
  induction template with
  | literal text => exact ofText_literal h
  | slot text inside rest ih =>
    obtain ⟨ho, hc, hrest⟩ := h
    rw [toText, List.append_assoc, List.append_assoc, ← List.append_assoc inside,
      ofText_slot ho hc, ih hrest]
  | unclosed text rest => exact ofText_unclosed h.1 h.2

theorem existsUnique_leftmost (t : Text) :
    ∃! template : Template, template.toText = t ∧ template.IsLeftmost := by
  refine ⟨ofText t, ⟨toText_ofText t, isLeftmost_ofText t⟩, ?_⟩
  rintro template ⟨rfl, h⟩
  exact h.ofText_toText.symm

/-- Three opening braces: the slot opens at the first two. -/
example : ofText "a\x7b\x7b\x7bb\x7d\x7d\x7d".toList =
    .slot "a".toList "\x7bb".toList (.literal "\x7d".toList) := by
  decide +kernel

theorem IsLeftmost.not_mem_literals (h : template.IsLeftmost) :
    ∀ text ∈ template.literals, ¬ opening <:+: text := by
  induction template with
  | literal text => exact List.forall_mem_singleton.mpr h
  | slot text inside rest ih =>
    exact List.forall_mem_cons.mpr ⟨h.1.not_mem_before (by decide), ih h.2.2⟩
  | unclosed text rest => exact List.forall_mem_singleton.mpr (h.1.not_mem_before (by decide))

section Filling

variable {values : List (Text × Text)}

def firstValue? (values : List (Text × Text)) (key : Text) : Option Text :=
  (values.find? fun entry => entry.1 = key).map (·.2)

def assemble (value : Text → Text) : Template → Text
  | literal text => text
  | slot text inside rest => text ++ value inside.trim ++ rest.assemble value
  | unclosed text _ => text

/-- What is reported of the slots that cannot be filled, in the order of the text. -/
def offences (values : List (Text × Text)) (template : Template) : List Text :=
  template.keys.filter (fun key => (firstValue? values key).isNone) ++ template.openLine?.toList

theorem lookup?_eq_firstValue? (values : List (Text × Text)) (key : Text) :
    Text.lookup? key values = firstValue? values key := by
  induction values with
  | nil => rfl
  | cons entry values ih =>
    obtain ⟨k, value⟩ := entry
    by_cases h : k = key
    · simp [Text.lookup?, firstValue?, h]
    · simpa [Text.lookup?, firstValue?, h] using ih

theorem fill_eq (values : List (Text × Text)) (template : Template) :
    template.fill values =
      match (template.offences values).head? with
      | none => .ok (template.assemble fun key => (firstValue? values key).getD [])
      | some offence => .error (.unknownSlot offence) := by
  induction template with
  | literal text => rfl
  | unclosed text rest => rfl
  | slot text inside rest ih =>
    rw [fill, lookup?_eq_firstValue?]
    cases hvalue : firstValue? values inside.trim with
    | none => simp [offences, keys, hvalue]
    | some value =>
      have hsame : (slot text inside rest).offences values = rest.offences values := by
        simp [offences, keys, openLine?, hvalue]
      simp only [ih, hsame]
      cases (rest.offences values).head? with
      | none => simp [assemble, hvalue, bind, Except.bind]
      | some offence => rfl

end Filling

end Template

end MotionExport
