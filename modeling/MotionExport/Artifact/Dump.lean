import MotionExport.Artifact.Error
import MotionExport.Json.Reader
import MotionExport.Model.Document
import MotionExport.Number.Style

/-! # JSON dumps

A document as a JSON object with a member for every field, and back. A reader also takes the fields
of a record as an array in their order, and passes over members that it does not know.
-/

namespace MotionExport

namespace Json

def ofText (t : Text) : Json := string (some t)

def ofNumber (x : Binary64) : Json := number (NumberStyle.json.write x)

def ofCount (n : Nat) : Json := number (numeral n)

def record (members : List (Text × Json)) : Json :=
  object (members.map fun (key, j) => (some key, j))

def toText? : Json → Option Text
  | string t => t
  | _ => none

def toNumber? : Json → Option Binary64
  | number written => (JsonNumber.ofText? written).bind JsonNumber.toBinary64?
  | _ => none

def toCount? : Json → Option Nat
  | number written => (JsonNumber.ofText? written).bind JsonNumber.toCount?
  | _ => none

def toList? {α : Type} (item : Json → Option α) : Json → Option (List α)
  | array items => items.mapM item
  | _ => none

/-- The value of the only member under `key`; no value if there is none, and a failure if there are
two. -/
def member? (key : Text) (members : List (Option Text × Json)) : Option (Option Json) :=
  match members.filter fun m => m.1 = some key with
  | [] => some none
  | [m] => some (some m.2)
  | _ => none

/-- The values of a record's fields: the members of an object, or the items of an array of exactly
as many. -/
def fields? (keys : List Text) : Json → Option (List (Option Json))
  | object members =>
    if members.all fun m => m.1.isSome then keys.mapM fun key => member? key members else none
  | array items => if items.length = keys.length then some (items.map some) else none
  | _ => none

def optionalText? : Option Json → Option (Option Text)
  | none | some null => some none
  | some j => j.toText?.map some

end Json

open Json

namespace IntegrationOptions

def toJson (o : IntegrationOptions) : Json :=
  record (IntegrationOption.all.map fun k => (k.fieldName, ofNumber (o.value k)))

def ofJson? (j : Json) : Option IntegrationOptions := do
  match ← j.fields? (IntegrationOption.all.map (·.fieldName)) with
  | [some initial, some final, some step, some absolute, some relative] =>
    some {
      initialTime := ← initial.toNumber?
      finalTime := ← final.toNumber?
      stepSize := ← step.toNumber?
      absoluteError := ← absolute.toNumber?
      relativeError := ← relative.toNumber? }
  | _ => none

end IntegrationOptions

namespace Quantity

/-- The object of a quantity whose value stands under `valueKey`. Units that are not there are left
out. -/
def toJson (valueKey : Text) (q : Quantity) : Json :=
  record ([("name".toList, ofText q.name), (valueKey, ofNumber q.value)]
    ++ match q.units with
      | some units => [("units".toList, ofText units)]
      | none => [])

def ofJson? (valueKey : Text) (j : Json) : Option Quantity := do
  match ← j.fields? ["name".toList, valueKey, "units".toList] with
  | [some name, some value, units] =>
    some ⟨← name.toText?, ← value.toNumber?, ← optionalText? units⟩
  | _ => none

end Quantity

namespace Equation

def toJson (e : Equation) : Json :=
  record [("lhs".toList, ofText e.lhs), ("rhs".toList, ofText e.rhs)]

def ofJson? (j : Json) : Option Equation := do
  match ← j.fields? ["lhs".toList, "rhs".toList] with
  | [some lhs, some rhs] => some ⟨← lhs.toText?, ← rhs.toText?⟩
  | _ => none

end Equation

namespace Document

def fieldNames : List Text :=
  ["name".toList, "integration".toList, "parameters".toList, "states".toList, "globals".toList,
    "aux_count".toList, "constants".toList, "motion".toList, "inputs".toList,
    "dependents".toList, "output_names".toList, "outputs".toList, "linear".toList]

def toJson (d : Document) : Json :=
  record (fieldNames.zip [
    ofText d.name,
    d.integration.toJson,
    array (d.parameters.map (Quantity.toJson "value".toList)),
    array (d.states.map (Quantity.toJson "initial_value".toList)),
    array (d.globals.map ofText),
    ofCount d.auxCount,
    array (d.constants.map Equation.toJson),
    array (d.motion.map Equation.toJson),
    array (d.inputs.map Equation.toJson),
    array (d.dependents.map Equation.toJson),
    array (d.outputNames.map ofText),
    array (d.outputs.map Equation.toJson),
    array (d.linear.map Equation.toJson)])

def ofJson? (j : Json) : Option Document := do
  match ← j.fields? fieldNames with
  | [some name, some integration, some parameters, some states, some globals, some auxCount,
      some constants, some motion, some inputs, some dependents, some outputNames, some outputs,
      some linear] =>
    some {
      name := ← name.toText?
      integration := ← IntegrationOptions.ofJson? integration
      parameters := ← parameters.toList? (Quantity.ofJson? "value".toList)
      states := ← states.toList? (Quantity.ofJson? "initial_value".toList)
      globals := ← globals.toList? toText?
      auxCount := ← auxCount.toCount?
      constants := ← constants.toList? Equation.ofJson?
      motion := ← motion.toList? Equation.ofJson?
      inputs := ← inputs.toList? Equation.ofJson?
      dependents := ← dependents.toList? Equation.ofJson?
      outputNames := ← outputNames.toList? toText?
      outputs := ← outputs.toList? Equation.ofJson?
      linear := ← linear.toList? Equation.ofJson? }
  | _ => none

/-- The JSON text of a document. -/
def dump (d : Document) : Text := d.toJson.write 0

def ofDump (t : Text) : Except ArtifactError Document :=
  match (Json.ofText? t).bind ofJson? with
  | some d => .ok d
  | none => .error .notADocument

end Document

end MotionExport
