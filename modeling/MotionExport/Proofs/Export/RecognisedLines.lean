import MotionExport.Proofs.Export.ParameterNames
import MotionExport.Proofs.Export.ReadAlike
import MotionExport.Proofs.Text.Pieces

/-! # Recognised lines of a parameter file

A parameter file is read by its recognised lines, up to the first one that sets the relative error.
Its header, the other lines and what follows do not matter, but for the number of a line that is
reported.
-/

namespace MotionExport

namespace IntegrationOption

theorem mem_all (o : IntegrationOption) : o ∈ all := by
  cases o <;> decide

theorem keyword_injective : Function.Injective keyword := fun o o' h =>
  List.inj_on_of_nodup_map (by decide : (all.map keyword).Nodup) o.mem_all o'.mem_all h

theorem find?_keyword (o : IntegrationOption) :
    all.find? (fun o' => some o.keyword = some o'.keyword) = some o := by
  cases o <;> decide

end IntegrationOption

namespace ParameterFile

def GivesConstant (line : Text) : Prop := line.words[0]? = some "Constant".toList

def GivesInitialValue (line : Text) : Prop :=
  line.words[0]? = some "Initial".toList ∧ line.words[1]? = some "Value".toList

/-- The keyword of an option counts only in a line that gives no quantity. -/
structure SetsOption (o : IntegrationOption) (line : Text) : Prop where
  not_constant : ¬ GivesConstant line
  not_initialValue : ¬ GivesInitialValue line
  keyword : line.words[2]? = some o.keyword

/-- By its first words the line is none of a constant, an initial value or an option. -/
structure IsUnrecognised (line : Text) : Prop where
  not_constant : ¬ GivesConstant line
  not_initialValue : ¬ GivesInitialValue line
  not_option : ∀ o : IntegrationOption, line.words[2]? ≠ some o.keyword

instance : DecidablePred GivesConstant := fun _ => inferInstanceAs (Decidable (_ = _))

instance : DecidablePred GivesInitialValue := fun _ => inferInstanceAs (Decidable (_ ∧ _))

instance (o : IntegrationOption) : DecidablePred (SetsOption o) := fun _ =>
  decidable_of_iff (_ ∧ _ ∧ _) ⟨fun ⟨hc, hi, hk⟩ => ⟨hc, hi, hk⟩, fun ⟨hc, hi, hk⟩ => ⟨hc, hi, hk⟩⟩

inductive IsOfKind (line : Text) : LineKind → Prop where

  | parameter : GivesConstant line → IsOfKind line .parameter

  | state : GivesInitialValue line → IsOfKind line .state

  | option {o : IntegrationOption} : SetsOption o line → IsOfKind line (.option o)

  | other : IsUnrecognised line → IsOfKind line .other

section Kinds

variable {line : Text} {o o' : IntegrationOption} {kind : LineKind}

theorem GivesInitialValue.not_constant (h : GivesInitialValue line) : ¬ GivesConstant line :=
  fun hc => absurd (Option.some.inj (h.1.symm.trans hc)) (by decide)

theorem SetsOption.unique (h : SetsOption o line) (h' : SetsOption o' line) : o = o' :=
  IntegrationOption.keyword_injective (Option.some.inj (h.keyword.symm.trans h'.keyword))

theorem isUnrecognised_of_trim_eq_nil (h : line.trim = []) : IsUnrecognised line := by
  constructor <;> simp [GivesConstant, GivesInitialValue, Text.words_eq_nil h]

def kindOf (line : Text) : LineKind := .ofWords line.words

theorem isOfKind_kindOf (line : Text) : IsOfKind line (kindOf line) := by
  unfold kindOf LineKind.ofWords
  split
  case isTrue hc => exact .parameter hc
  split
  case isTrue hi => exact .state hi
  split
  case h_1 hc hi _ o ho => exact .option ⟨hc, hi, by simpa using List.find?_some ho⟩
  case h_2 hc hi _ hnone =>
    refine .other ⟨hc, hi, fun o => ?_⟩
    simpa using List.find?_eq_none.mp hnone o o.mem_all

theorem IsOfKind.kindOf_eq (h : IsOfKind line kind) : kindOf line = kind := by
  cases h with
  | parameter hc => exact if_pos hc
  | state hi => exact (if_neg hi.not_constant).trans (if_pos hi)
  | @option o ho =>
    refine (if_neg ho.not_constant).trans ((if_neg ho.not_initialValue).trans ?_)
    rw [ho.keyword, o.find?_keyword]
  | other hu =>
    have hnone : IntegrationOption.all.find? (fun o => line.words[2]? = some o.keyword) = none :=
      List.find?_eq_none.mpr fun o _ => by simpa using hu.not_option o
    refine (if_neg hu.not_constant).trans ((if_neg hu.not_initialValue).trans ?_)
    rw [hnone]

theorem kindOf_eq_option_iff : kindOf line = .option o ↔ SetsOption o line := by
  constructor
  · intro h
    cases h ▸ isOfKind_kindOf line with
    | option ho => exact ho
  · exact fun ho => (IsOfKind.option ho).kindOf_eq

end Kinds

/-- The same recognised lines in the same order, up to the first one that sets the relative error,
with other lines between them. -/
inductive SameRecognised : List Text → List Text → Prop where

  | nil : SameRecognised [] []

  | line (l : Text) {ls ls' : List Text} (rest : SameRecognised ls ls') :
    SameRecognised (l :: ls) (l :: ls')

  | inserted {l : Text} {ls ls' : List Text} (h : l.trim = [] ∨ IsUnrecognised l)
    (rest : SameRecognised ls ls') : SameRecognised ls (l :: ls')

  | deleted {l : Text} {ls ls' : List Text} (h : l.trim = [] ∨ IsUnrecognised l)
    (rest : SameRecognised ls ls') : SameRecognised (l :: ls) ls'

  | ended {l : Text} (h : SetsOption .relativeError l) (ls ls' : List Text) :
    SameRecognised (l :: ls) (l :: ls')

/-- Two files differ in the lines of their header, which are as many in both, and in lines that are
passed over. -/
inductive SameButIgnored (header : Nat) : List Text → List Text → Prop where

  | short {ls ls' : List Text} (h : ls.length < header) (h' : ls'.length = ls.length) :
    SameButIgnored header ls ls'

  | long {front front' ls ls' : List Text} (h : front.length = header)
    (h' : front'.length = header) (body : SameRecognised ls ls') :
    SameButIgnored header (front ++ ls) (front' ++ ls')

variable {words : List Text} {n n' i : Nat} {ls ls' : List Text}

open ExportError (SameButLine)

theorem matched_wordAt : Matched SameButLine Eq (wordAt words n i) (wordAt words n' i) := by
  unfold wordAt
  split
  · exact .ok rfl
  · exact .error (.malformedLine trivial _)

theorem matched_numberAt : Matched SameButLine Eq (numberAt words n i) (numberAt words n' i) := by
  refine matched_wordAt.bind ?_
  rintro word _ rfl
  split
  · exact .ok rfl
  · exact .error (.malformedLine trivial _)

theorem Draft.matched_newName (d : Draft) :
    Matched SameButLine Eq (d.newName words n i) (d.newName words n' i) := by
  refine matched_wordAt.bind ?_
  rintro word _ rfl
  split
  · exact .error (.malformedLine trivial _)
  · exact .ok rfl

theorem Draft.matched_add (d : Draft) (kind : LineKind) :
    Matched SameButLine Eq (d.add words n kind) (d.add words n' kind) := by
  cases kind with
  | parameter =>
    refine d.matched_newName.bind ?_
    rintro name _ rfl
    refine matched_numberAt.bind ?_
    rintro value _ rfl
    exact .ok rfl
  | state =>
    refine d.matched_newName.bind ?_
    rintro name _ rfl
    refine matched_numberAt.bind ?_
    rintro value _ rfl
    exact .ok rfl
  | option o =>
    refine matched_numberAt.bind ?_
    rintro value _ rfl
    exact .ok rfl
  | other => exact .ok rfl

theorem scan_cons (d : Draft) (n : Nat) (l : Text) (ls : List Line) :
    scan d (⟨n, l⟩ :: ls) = d.add l.words n (kindOf l) >>= fun d =>
      if kindOf l = .option .relativeError then .ok d else scan d ls := rfl

theorem scan_cons_of_ignored {l : Text} (h : l.trim = [] ∨ IsUnrecognised l) (d : Draft) (n : Nat)
    (ls : List Line) : scan d (⟨n, l⟩ :: ls) = scan d ls := by
  have hother : IsOfKind l .other := .other (h.elim isUnrecognised_of_trim_eq_nil id)
  rw [scan_cons, hother.kindOf_eq]
  rfl

/-- Lines that are passed over do not matter, nor does what follows the relative error. -/
theorem matched_scan (h : SameRecognised ls ls') (d : Draft) (n n' : Nat) :
    Matched SameButLine Eq (scan d (Line.numbered n ls)) (scan d (Line.numbered n' ls')) := by
  -- Both runs keep the same draft; only the numbers of their lines drift apart.
  induction h generalizing d n n' with
  | nil => exact .ok rfl
  | line l _ ih =>
    rw [Line.numbered, Line.numbered, scan_cons, scan_cons]
    refine (d.matched_add _).bind ?_
    rintro d' _ rfl
    split
    · exact .ok rfl
    · exact ih d' _ _
  | inserted hl _ ih =>
    rw [Line.numbered, scan_cons_of_ignored hl]
    exact ih d _ _
  | deleted hl _ ih =>
    rw [Line.numbered, scan_cons_of_ignored hl]
    exact ih d _ _
  | ended hl =>
    rw [Line.numbered, Line.numbered, scan_cons, scan_cons]
    refine (d.matched_add _).bind ?_
    rintro d' _ rfl
    have hkind := kindOf_eq_option_iff.mpr hl
    rw [if_pos hkind, if_pos hkind]
    exact .ok rfl

theorem matched_ofText {settings : ExportSettings} {t t' : Text}
    (h : SameButIgnored settings.parameterHeader t.lines t'.lines) :
    Matched SameButLine Eq (ofText settings t) (ofText settings t') := by
  rw [ofText, ofText, ofLines, ofLines]
  generalize t.lines = lines, t'.lines = lines' at h
  cases h with
  | short h h' =>
    rw [if_pos h, if_pos (h' ▸ h), h']
    exact .error (.refl _)
  | @long front front' ls ls' h h' body =>
    have hlong (front ls : List Text) (h : front.length = settings.parameterHeader) :
        ¬ (front ++ ls).length < settings.parameterHeader := by
      rw [List.length_append]
      omega
    rw [if_neg (hlong front ls h), if_neg (hlong front' ls' h'), Line.drop_numbered,
      Line.drop_numbered, List.drop_left' h, List.drop_left' h']
    refine (matched_scan body {} _ _).bind ?_
    rintro d _ rfl
    exact .refl .refl _

section Records

def numberOn? (i : Nat) (line : Text) : Option Binary64 := line.words[i]?.bind number?

def quantityOn? (i : Nat) (line : Text) : Option Quantity := do
  let name ← line.words[i]?
  let value ← numberOn? (i + 3) line
  some ⟨name, value, unitsAt line.words (i + 1)⟩

def scannedLines : List Text → List Text
  | [] => []
  | l :: ls => if SetsOption .relativeError l then [l] else l :: scannedLines ls

theorem numberAt_eq_ok_iff {l : Text} {value : Binary64} :
    numberAt l.words n i = .ok value ↔ numberOn? i l = some value := by
  unfold numberAt numberOn?
  rw [bind_eq_ok_iff, Option.bind_eq_some_iff]
  refine exists_congr fun word => and_congr wordAt_eq_ok_iff ?_
  split <;> simp_all

structure Draft.Records (d : Draft) (read : List Text) : Prop where
  parameters : (read.filter (GivesConstant ·)).map (quantityOn? 1) = d.parameters.map some
  states : (read.filter (GivesInitialValue ·)).map (quantityOn? 2) = d.states.map some
  options : ∀ o : IntegrationOption,
    (read.filter (SetsOption o ·)).getLast?.bind (numberOn? o.valuePosition) =
      (d.options.find? fun setting => setting.1 = o).map (·.2)

theorem quantityOn?_eq {d : Draft} {l name : Text} {value : Binary64}
    (hname : d.newName l.words n i = .ok name) (hvalue : numberAt l.words n (i + 3) = .ok value) :
    quantityOn? i l = some ⟨name, value, unitsAt l.words (i + 1)⟩ := by
  rw [quantityOn?, (Draft.newName_eq_ok_iff.mp hname).1, numberAt_eq_ok_iff.mp hvalue]
  rfl

theorem filter_concat_of {p : Text → Prop} [DecidablePred p] {l : Text} (h : p l)
    (read : List Text) : (read ++ [l]).filter (p ·) = read.filter (p ·) ++ [l] := by
  simp [List.filter_append, h]

theorem filter_concat_of_not {p : Text → Prop} [DecidablePred p] {l : Text} (h : ¬ p l)
    (read : List Text) : (read ++ [l]).filter (p ·) = read.filter (p ·) := by
  simp [List.filter_append, h]

theorem Draft.records_add {d d' : Draft} {read : List Text} {l : Text}
    (h : d.add l.words n (kindOf l) = .ok d') (hd : d.Records read) :
    d'.Records (read ++ [l]) := by
  -- A line is of one kind, so that it adds to one of the three fields and leaves the others.
  have hkind := isOfKind_kindOf l
  generalize kindOf l = kind at h hkind
  cases hkind with
  | parameter hc =>
    obtain ⟨name, hname, h⟩ := bind_eq_ok_iff.mp h
    obtain ⟨value, hvalue, h⟩ := bind_eq_ok_iff.mp h
    cases h
    have hi : ¬ GivesInitialValue l := fun hi => hi.not_constant hc
    refine ⟨?_, ?_, fun o => ?_⟩
    · rw [filter_concat_of hc, List.map_append, List.map_append, hd.parameters, List.map_singleton,
        quantityOn?_eq hname hvalue, List.map_singleton]
    · rw [filter_concat_of_not hi, hd.states]
    · rw [filter_concat_of_not fun ho => ho.not_constant hc, hd.options]
  | state hi =>
    obtain ⟨name, hname, h⟩ := bind_eq_ok_iff.mp h
    obtain ⟨value, hvalue, h⟩ := bind_eq_ok_iff.mp h
    cases h
    refine ⟨?_, ?_, fun o => ?_⟩
    · rw [filter_concat_of_not hi.not_constant, hd.parameters]
    · rw [filter_concat_of hi, List.map_append, List.map_append, hd.states, List.map_singleton,
        quantityOn?_eq hname hvalue, List.map_singleton]
    · rw [filter_concat_of_not fun ho => ho.not_initialValue hi, hd.options]
  | @option o ho =>
    obtain ⟨value, hvalue, h⟩ := bind_eq_ok_iff.mp h
    cases h
    refine ⟨?_, ?_, fun o' => ?_⟩
    · rw [filter_concat_of_not ho.not_constant, hd.parameters]
    · rw [filter_concat_of_not ho.not_initialValue, hd.states]
    · by_cases heq : o = o'
      · subst heq
        rw [filter_concat_of ho, List.getLast?_concat, List.find?_cons_of_pos (by simp)]
        exact numberAt_eq_ok_iff.mp hvalue
      · rw [filter_concat_of_not fun ho' => heq (ho.unique ho'), hd.options,
          List.find?_cons_of_neg (by simpa using heq)]
  | other hu =>
    cases h
    refine ⟨?_, ?_, fun o => ?_⟩
    · rw [filter_concat_of_not hu.not_constant, hd.parameters]
    · rw [filter_concat_of_not hu.not_initialValue, hd.states]
    · rw [filter_concat_of_not fun ho => hu.not_option o ho.keyword, hd.options]

/-- The lines up to the first one that sets the relative error are added to what was read. -/
theorem records_scan {d d' : Draft} {read ls : List Text}
    (h : scan d (Line.numbered n ls) = .ok d') (hd : d.Records read) :
    d'.Records (read ++ scannedLines ls) := by
  induction ls generalizing d n read with
  | nil =>
    cases h
    rw [scannedLines, List.append_nil]
    exact hd
  | cons l ls ih =>
    rw [Line.numbered, scan_cons] at h
    obtain ⟨d₁, hadd, h⟩ := bind_eq_ok_iff.mp h
    have hd₁ := Draft.records_add hadd hd
    rw [scannedLines]
    split at h
    case isTrue hkind =>
      cases h
      rw [if_pos (kindOf_eq_option_iff.mp hkind)]
      exact hd₁
    case isFalse hkind =>
      rw [if_neg (mt kindOf_eq_option_iff.mpr hkind)]
      simpa using ih h hd₁

/-- The lines that were read make up the file. -/
structure Records (p : ParameterFile) (read : List Text) : Prop where
  parameters : (read.filter (GivesConstant ·)).map (quantityOn? 1) = p.parameters.map some
  states : (read.filter (GivesInitialValue ·)).map (quantityOn? 2) = p.states.map some
  names : p.names.Nodup
  options : ∀ o : IntegrationOption,
    (read.filter (SetsOption o ·)).getLast?.bind (numberOn? o.valuePosition) =
      some (p.integration.value o)

theorem Draft.option_eq_ok_iff {d : Draft} {o : IntegrationOption} {value : Binary64} :
    d.option o = .ok value ↔
      (d.options.find? fun setting => setting.1 = o).map (·.2) = some value := by
  unfold Draft.option
  cases d.options.find? fun setting => setting.1 = o with
  | none => simp
  | some setting => simp

theorem Draft.option_of_integration {d : Draft} {values : IntegrationOptions}
    (h : d.integration = .ok values) (o : IntegrationOption) :
    d.option o = .ok (values.value o) := by
  obtain ⟨initialTime, hinitialTime, h⟩ := bind_eq_ok_iff.mp h
  obtain ⟨finalTime, hfinalTime, h⟩ := bind_eq_ok_iff.mp h
  obtain ⟨stepSize, hstepSize, h⟩ := bind_eq_ok_iff.mp h
  obtain ⟨absoluteError, habsoluteError, h⟩ := bind_eq_ok_iff.mp h
  obtain ⟨relativeError, hrelativeError, h⟩ := bind_eq_ok_iff.mp h
  cases h
  cases o <;> assumption

theorem records_of_ofText {settings : ExportSettings} {t : Text} {p : ParameterFile}
    (h : ofText settings t = .ok p) :
    p.Records (scannedLines (t.lines.drop settings.parameterHeader)) := by
  obtain ⟨d, hscan, hintegration, hparameters, hstates⟩ := exists_scan_of_ofText h
  have hempty : Draft.Records {} [] := ⟨rfl, rfl, fun _ => rfl⟩
  have hd := records_scan hscan hempty
  rw [List.nil_append] at hd
  refine ⟨?_, ?_, nodup_names_of_ofText h, fun o => ?_⟩
  · rw [hd.parameters, hparameters]
  · rw [hd.states, hstates]
  · rw [hd.options]
    exact Draft.option_eq_ok_iff.mp (Draft.option_of_integration hintegration o)

end Records

def pendulumLines : List Text :=
  ["Constant g UNITS = 9.81".toList, "Initial Time TINITIAL s = 0".toList,
    "Final Time TFINAL s = 5".toList, "Initial Value theta UNITS = 1".toList,
    "Step INTEGSTP INTEGSTP s = 2".toList, "Final Time TFINAL s = 6".toList,
    "Absolute Error ABSERR = 3".toList, "Relative Error RELERR = 4D0".toList]

def pendulumFile : Text :=
  ("pendulum".toList :: pendulumLines ++ ["Constant g UNITS = 1".toList]).flatMap (· ++ ['\n'])

def remarkedFile : Text :=
  ("a pendulum".toList :: [] :: "Initial values".toList :: pendulumLines).flatMap (· ++ ['\n'])

end ParameterFile

end MotionExport
