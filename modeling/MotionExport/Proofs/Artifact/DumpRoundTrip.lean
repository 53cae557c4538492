import Mathlib.Data.List.Nodup
import MotionExport.Artifact.Dump
import MotionExport.Proofs.Json.Rereading
import MotionExport.Proofs.Outcome

/-! # Reading dumps

A document is read from its own dump as it was. The members of a record have distinct keys, so each
field finds its own member, and a member that is left out stands for no units.
-/

namespace MotionExport

theorem Text.map_lookup?_zip {α : Type} {keys : List Text} {values : List α} (hkeys : keys.Nodup)
    (h : keys.length = values.length) :
    (keys.map fun key => lookup? key (keys.zip values)) = values.map some := by
  induction keys generalizing values with
  | nil =>
    obtain rfl := List.eq_nil_of_length_eq_zero h.symm
    rfl
  | cons k keys ih =>
    obtain ⟨v, values, rfl⟩ := List.exists_cons_of_length_eq_add_one h.symm
    obtain ⟨hk, hkeys⟩ := List.nodup_cons.mp hkeys
    have hothers : ∀ key ∈ keys, lookup? key ((k :: keys).zip (v :: values)) =
        lookup? key (keys.zip values) := by
      intro key hkey
      rw [List.zip_cons_cons, lookup?, if_neg]
      rintro rfl
      exact hk hkey
    rw [List.map_cons, List.map_congr_left hothers, ih hkeys (Nat.succ.inj h), List.map_cons,
      List.zip_cons_cons, lookup?, if_pos rfl]

theorem Text.lookup?_eq_none {α : Type} {key : Text} {members : List (Text × α)}
    (h : key ∉ members.map (·.1)) : lookup? key members = none := by
  induction members with
  | nil => rfl
  | cons m members ih =>
    obtain ⟨hm, hmembers⟩ := List.ne_and_not_mem_of_not_mem_cons h
    rw [lookup?, if_neg hm.symm, ih hmembers]

namespace Json

variable {α : Type} {members : List (Text × Json)}

section Proper

theorem IsProper.record (h : ∀ m ∈ members, m.2.IsProper) : (record members).IsProper := by
  apply IsProper.object
  · intro m hm
    obtain ⟨m, -, rfl⟩ := List.mem_map.mp hm
    rfl
  · intro m hm
    obtain ⟨⟨key, j⟩, hmem, rfl⟩ := List.mem_map.mp hm
    exact h (key, j) hmem

theorem IsProper.array_map {f : α → Json} {l : List α} (h : ∀ a ∈ l, (f a).IsProper) :
    (Json.array (l.map f)).IsProper := by
  apply IsProper.array
  intro j hj
  obtain ⟨a, ha, rfl⟩ := List.mem_map.mp hj
  exact h a ha

theorem IsProper.ofCount (n : Nat) : (ofCount n).IsProper := .number (JsonNumber.ofText?_numeral n)

theorem IsProper.ofNumber {x : Binary64} (h : (ofNumber x).toNumber? = some x) :
    (ofNumber x).IsProper := by
  obtain ⟨n, hn, -⟩ := Option.bind_eq_some_iff.mp h
  exact .number hn

end Proper

section Fields

theorem filter_members (h : (members.map (·.1)).Nodup) (key : Text) :
    (members.map fun (k, j) => (some k, j)).filter (fun m => m.1 = some key) =
      ((Text.lookup? key members).map fun j => (some key, j)).toList := by
  induction members with
  | nil => rfl
  | cons m members ih =>
    obtain ⟨k, j⟩ := m
    obtain ⟨hk, hnodup⟩ := List.nodup_cons.mp h
    rw [List.map_cons, Text.lookup?]
    by_cases heq : k = key
    · have hothers :
          (members.map fun (k, j) => (some k, j)).filter (fun m => m.1 = some key) = [] := by
        apply List.filter_eq_nil_iff.mpr
        intro m hm hkey
        obtain ⟨⟨k', j'⟩, hmem, rfl⟩ := List.mem_map.mp hm
        obtain rfl : k' = key := by simpa using hkey
        exact hk (List.mem_map.mpr ⟨(k', j'), hmem, heq.symm⟩)
      rw [List.filter_cons_of_pos (by simp [heq]), hothers, if_pos heq, heq]
      rfl
    · rw [List.filter_cons_of_neg (by simp [heq]), if_neg heq]
      exact ih hnodup

theorem member?_map (h : (members.map (·.1)).Nodup) (key : Text) :
    member? key (members.map fun (k, j) => (some k, j)) = some (Text.lookup? key members) := by
  rw [member?, filter_members h]
  cases Text.lookup? key members <;> rfl

theorem fields?_record (h : (members.map (·.1)).Nodup) (keys : List Text) :
    (record members).fields? keys = some (keys.map fun key => Text.lookup? key members) := by
  have hkeys : (members.map fun (k, j) => (some k, j)).all (fun m => m.1.isSome) = true := by
    simp
  rw [record, fields?, if_pos hkeys]
  simp only [member?_map h]
  exact List.mapM_pure

/-- The fields of a record are its values, and those that were left out are missing. -/
theorem fields?_record_zip (keys : List Text) (values : List Json) (missing : List Text)
    (hkeys : (keys ++ missing).Nodup) (h : keys.length = values.length) :
    (record (keys.zip values)).fields? (keys ++ missing) =
      some (values.map some ++ missing.map fun _ => none) := by
  obtain ⟨hkeys, -, hdisjoint⟩ := List.nodup_append'.mp hkeys
  have hmap : (keys.zip values).map (·.1) = keys := List.map_fst_zip (Nat.le_of_eq h)
  have hmissing : ∀ key ∈ missing, Text.lookup? key (keys.zip values) = none := fun key hkey =>
    Text.lookup?_eq_none fun hmem => hdisjoint (hmap ▸ hmem) hkey
  rw [fields?_record (hmap.symm ▸ hkeys), List.map_append, Text.map_lookup?_zip hkeys h,
    List.map_congr_left hmissing]

end Fields

theorem toCount?_ofCount {n : Nat} (h : n < Nat.pow 2 64) : (ofCount n).toCount? = some n := by
  simp [ofCount, toCount?, JsonNumber.ofText?_numeral, JsonNumber.toCount?, h]

theorem toList?_array_map {item : Json → Option α} {f : α → Json} {l : List α}
    (h : ∀ a ∈ l, item (f a) = some a) : (array (l.map f)).toList? item = some l :=
  mapM_map_of_forall h

end Json

open Json

namespace IntegrationOptions

theorem ofJson?_toJson (o : IntegrationOptions)
    (h : ∀ option, (ofNumber (o.value option)).toNumber? = some (o.value option)) :
    ofJson? o.toJson = some o := by
  have hfields : o.toJson.fields? (IntegrationOption.all.map (·.fieldName)) =
      some (IntegrationOption.all.map fun option => some (ofNumber (o.value option))) :=
    fields?_record_zip (IntegrationOption.all.map IntegrationOption.fieldName)
      (IntegrationOption.all.map fun option => ofNumber (o.value option)) [] (by decide) rfl
  rw [ofJson?, hfields]
  simp only [IntegrationOption.all, List.map_cons, List.map_nil, Option.bind_eq_bind,
    Option.bind_some, h]
  rfl

theorem isProper_toJson (o : IntegrationOptions)
    (h : ∀ option, (ofNumber (o.value option)).toNumber? = some (o.value option)) :
    o.toJson.IsProper := by
  apply IsProper.record
  intro m hm
  obtain ⟨option, -, rfl⟩ := List.mem_map.mp hm
  exact .ofNumber (h option)

end IntegrationOptions

namespace Quantity

variable {q : Quantity} {valueKey : Text}

theorem ofJson?_toJson (hkeys : ["name".toList, valueKey, "units".toList].Nodup)
    (h : (ofNumber q.value).toNumber? = some q.value) :
    ofJson? valueKey (q.toJson valueKey) = some q := by
  obtain ⟨name, x, units⟩ := q
  have hread : (ofNumber x).toNumber? = some x := h
  cases units with
  | none =>
    have hfields : (toJson valueKey ⟨name, x, none⟩).fields?
        ["name".toList, valueKey, "units".toList] =
          some [some (ofText name), some (ofNumber x), none] :=
      fields?_record_zip ["name".toList, valueKey] [ofText name, ofNumber x] ["units".toList]
        hkeys rfl
    rw [ofJson?, hfields]
    simp only [Option.bind_eq_bind, Option.bind_some, hread]
    rfl
  | some units =>
    have hfields : (toJson valueKey ⟨name, x, some units⟩).fields?
        ["name".toList, valueKey, "units".toList] =
          some [some (ofText name), some (ofNumber x), some (ofText units)] :=
      fields?_record_zip ["name".toList, valueKey, "units".toList]
        [ofText name, ofNumber x, ofText units] [] (by rw [List.append_nil]; exact hkeys) rfl
    rw [ofJson?, hfields]
    simp only [Option.bind_eq_bind, Option.bind_some, hread]
    rfl

theorem isProper_toJson (h : (ofNumber q.value).toNumber? = some q.value) :
    (q.toJson valueKey).IsProper := by
  obtain ⟨name, x, units⟩ := q
  apply IsProper.record
  intro m hm
  rcases List.mem_append.mp hm with hm | hm
  · simp only [List.mem_cons, List.not_mem_nil, or_false] at hm
    rcases hm with rfl | rfl
    · exact .string name
    · exact .ofNumber h
  · cases units with
    | none => cases hm
    | some units =>
      obtain rfl := List.mem_singleton.mp hm
      exact .string units

end Quantity

namespace Equation

theorem ofJson?_toJson (e : Equation) : ofJson? e.toJson = some e := by
  have hfields : e.toJson.fields? ["lhs".toList, "rhs".toList] =
      some [some (ofText e.lhs), some (ofText e.rhs)] :=
    fields?_record_zip ["lhs".toList, "rhs".toList] [ofText e.lhs, ofText e.rhs] [] (by decide) rfl
  rw [ofJson?, hfields]
  rfl

theorem isProper_toJson (e : Equation) : e.toJson.IsProper := by
  apply IsProper.record
  intro m hm
  simp only [List.mem_cons, List.not_mem_nil, or_false] at hm
  rcases hm with rfl | rfl
  · exact .string e.lhs
  · exact .string e.rhs

end Equation

namespace Document

def numbers (d : Document) : List Binary64 :=
  IntegrationOption.all.map d.integration.value ++
    (d.parameters ++ d.states).map (·.value)

def fieldValues (d : Document) : List Json :=
  [ofText d.name,
    d.integration.toJson,
    array (d.parameters.map (Quantity.toJson "value".toList)),
    array (d.states.map (Quantity.toJson "initial_value".toList)),
    array (d.globals.map ofText),
    ofCount d.auxCount,
    array (d.constants.map Equation.toJson),
    array (d.motion.map Equation.toJson),
    array (d.inputs.map Equation.toJson),
    array (d.dependents.map Equation.toJson),
    array (d.outputNames.map ofText),
    array (d.outputs.map Equation.toJson),
    array (d.linear.map Equation.toJson)]

variable {d : Document}

theorem numbers_forall_iff {P : Binary64 → Prop} : (∀ x ∈ d.numbers, P x) ↔
    (∀ option, P (d.integration.value option)) ∧ (∀ q ∈ d.parameters, P q.value) ∧
      ∀ q ∈ d.states, P q.value := by
  have hoption : (∀ option ∈ IntegrationOption.all, P (d.integration.value option)) ↔
      ∀ option, P (d.integration.value option) :=
    ⟨fun h option => h option (by cases option <;> decide), fun h option _ => h option⟩
  simp only [numbers, List.forall_mem_append, List.forall_mem_map, hoption]

theorem ofJson?_toJson (hcount : d.auxCount < Nat.pow 2 64)
    (h : ∀ x ∈ d.numbers, (ofNumber x).toNumber? = some x) : ofJson? d.toJson = some d := by
  obtain ⟨hintegration, hparameters, hstates⟩ := numbers_forall_iff.mp h
  have hfields : d.toJson.fields? fieldNames = some (d.fieldValues.map some) :=
    fields?_record_zip fieldNames d.fieldValues [] (by decide) rfl
  have hequations (equations : List Equation) :
      (array (equations.map Equation.toJson)).toList? Equation.ofJson? = some equations :=
    toList?_array_map fun e _ => e.ofJson?_toJson
  have htexts (texts : List Text) : (array (texts.map ofText)).toList? toText? = some texts :=
    toList?_array_map fun _ _ => rfl
  -- Every field finds its value. What is left is to read the values one after the other.
  have hrun : ofJson? d.toJson = (do
      some {
        name := ← (ofText d.name).toText?
        integration := ← IntegrationOptions.ofJson? d.integration.toJson
        parameters := ← (array (d.parameters.map (Quantity.toJson "value".toList))).toList?
          (Quantity.ofJson? "value".toList)
        states := ← (array (d.states.map (Quantity.toJson "initial_value".toList))).toList?
          (Quantity.ofJson? "initial_value".toList)
        globals := ← (array (d.globals.map ofText)).toList? toText?
        auxCount := ← (ofCount d.auxCount).toCount?
        constants := ← (array (d.constants.map Equation.toJson)).toList? Equation.ofJson?
        motion := ← (array (d.motion.map Equation.toJson)).toList? Equation.ofJson?
        inputs := ← (array (d.inputs.map Equation.toJson)).toList? Equation.ofJson?
        dependents := ← (array (d.dependents.map Equation.toJson)).toList? Equation.ofJson?
        outputNames := ← (array (d.outputNames.map ofText)).toList? toText?
        outputs := ← (array (d.outputs.map Equation.toJson)).toList? Equation.ofJson?
        linear := ← (array (d.linear.map Equation.toJson)).toList? Equation.ofJson? }) := by
    rw [ofJson?, hfields]
    rfl
  rw [hrun, IntegrationOptions.ofJson?_toJson d.integration hintegration,
    toList?_array_map fun q hq => Quantity.ofJson?_toJson (by decide) (hparameters q hq),
    toList?_array_map fun q hq => Quantity.ofJson?_toJson (by decide) (hstates q hq),
    toCount?_ofCount hcount, htexts, htexts]
  simp only [hequations]
  rfl

theorem isProper_toJson (h : ∀ x ∈ d.numbers, (ofNumber x).toNumber? = some x) :
    d.toJson.IsProper := by
  obtain ⟨hintegration, hparameters, hstates⟩ := numbers_forall_iff.mp h
  have hequations (equations : List Equation) :
      (array (equations.map Equation.toJson)).IsProper :=
    .array_map fun e _ => e.isProper_toJson
  have htexts (texts : List Text) : (array (texts.map ofText)).IsProper :=
    .array_map fun t _ => .string t
  have hvalues : ∀ j ∈ d.fieldValues, j.IsProper := by
    simp only [fieldValues, List.forall_mem_cons]
    exact ⟨.string d.name, d.integration.isProper_toJson hintegration,
      .array_map fun q hq => Quantity.isProper_toJson (hparameters q hq),
      .array_map fun q hq => Quantity.isProper_toJson (hstates q hq),
      htexts _, .ofCount _, hequations _, hequations _, hequations _, hequations _, htexts _,
      hequations _, hequations _, List.forall_mem_nil _⟩
  exact .record fun m hm => hvalues m.2 (List.of_mem_zip hm).2

/-- A document of finite numbers is read from its dump, if the numbers are read as they were. -/
theorem ofDump_dump (d : Document) (hcount : d.auxCount < Nat.pow 2 64)
    (hfinite : ∀ x ∈ d.numbers, x.IsFinite)
    (hnumbers : ∀ x ∈ d.numbers, x.IsFinite → (ofNumber x).toNumber? = some x) :
    ofDump d.dump = .ok d := by
  have h : ∀ x ∈ d.numbers, (ofNumber x).toNumber? = some x :=
    fun x hx => hnumbers x hx (hfinite x hx)
  rw [ofDump, dump, ofText?_write d.toJson (isProper_toJson h), Option.bind_some,
    ofJson?_toJson hcount h]

end Document

/-- A document with all kinds of escapes, with and without units, and with the largest count. -/
def pedalDocument : Document where
  name := "Pedal \"λ\" \\ \x01\x1f\n".toList
  integration := default
  parameters := [⟨"k".toList, .finite true ⟨Nat.pow 2 52, 1021, by decide⟩, some "N/m".toList⟩]
  states := [⟨"x".toList, .zero, none⟩]
  globals := []
  auxCount := Nat.pow 2 64 - 1
  constants := [⟨"z[1]".toList, "g*m;".toList⟩]
  motion := [⟨"xp".toList, []⟩]
  inputs := []
  dependents := []
  outputNames := ["x".toList, []]
  outputs := []
  linear := []

theorem pedalDocument_ofDump_dump :
    pedalDocument.auxCount < Nat.pow 2 64 ∧ (∀ x ∈ pedalDocument.numbers, x.IsFinite) ∧
      (∀ x ∈ pedalDocument.numbers, x.IsFinite → (ofNumber x).toNumber? = some x) ∧
      Document.ofDump pedalDocument.dump = .ok pedalDocument :=
  have hcount : pedalDocument.auxCount < Nat.pow 2 64 := by decide +kernel
  have hfinite : ∀ x ∈ pedalDocument.numbers, x.IsFinite := by decide +kernel
  have hnumbers : ∀ x ∈ pedalDocument.numbers, x.IsFinite → (ofNumber x).toNumber? = some x := by
    decide +kernel
  ⟨hcount, hfinite, hnumbers, pedalDocument.ofDump_dump hcount hfinite hnumbers⟩

end MotionExport
