import QueryPredicates.Config.Settings
import QueryPredicates.Config.Toml.Document

/-! Decoding settings from a document. A record is written as a table without any
entry that it does not know, or as an array of its fields in order; what stands beyond the
last field of such an array is not looked at. The switches may be left out, as may the
properties of a realm. -/

namespace QueryPredicates.Config
open QueryPredicates.Toml

/-- The written form of a record: what there is for each of its fields, in order. -/
def fields? (names : List String) : Item → Option (List (Option Item))
  | .table _ entries =>
    if entries.all fun entry => names.contains entry.1 then
      some (names.map fun name => entries.lookup name)
    else none
  | .array items => some (names.zipIdx.map fun (_, i) => items[i]?)
  | .tables items => some (names.zipIdx.map fun (_, i) => items[i]?)
  | _ => none

def string? : Item → Option String
  | .string s => some s
  | _ => none

def boolean? : Item → Option Bool
  | .boolean b => some b
  | _ => none

def list? {α : Type} (decode : Item → Option α) : Item → Option (List α)
  | .array items => items.mapM decode
  | .tables items => items.mapM decode
  | _ => none

/-- A field that may be left out. -/
def orDefault {α : Type} (default : α) (decode : Item → Option α) : Option Item → Option α
  | some item => decode item
  | none => some default

/-- A record of one switch. -/
def switch? (name : String) (default : Bool) (item : Item) : Option Bool := do
  match ← fields? [name] item with
  | [flag] => orDefault default boolean? flag
  | _ => none

def property? (item : Item) : Option Property := do
  match ← fields? ["name", "value"] item with
  | [some name, some value] => some ⟨← string? name, ← string? value⟩
  | _ => none

def realm? (item : Item) : Option Realm := do
  match ← fields? ["name", "validator_class", "property"] item with
  | [some name, some validatorClass, properties] =>
    some ⟨← string? name, ← string? validatorClass, ← orDefault [] (list? property?) properties⟩
  | _ => none

def settings? (entries : Entries) : Option Settings := do
  match ← fields? ["predicate", "index", "realm"] (.table .header entries) with
  | [predicate, index, realms] =>
    let defaults : Settings := {}
    some
      { warnOnNullConstant := ← orDefault defaults.warnOnNullConstant
          (switch? "warn_on_null_constant" defaults.warnOnNullConstant) predicate
        deriveConditions := ← orDefault defaults.deriveConditions
          (switch? "derive_conditions" defaults.deriveConditions) index
        realms := ← orDefault defaults.realms (list? realm?) realms }
  | _ => none

end QueryPredicates.Config
