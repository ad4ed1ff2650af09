import ConfigLowering.Json

/-!
# Records in JSON

A record is an object with the record's fields, in any order and among other
fields, or an array of its fields in their order from which the last ones may
be missing. A variant without contents is its name, or an object with the name
as only key and null below it.

Readers take the number of levels that containers may still nest.
-/

namespace ConfigLowering.Json

/-! ## Records -/

/-- The value of a field that occurs at most once. -/
def uniqueField (fields : List (String × Json)) (name : String) : Option (Option Json) :=
  match fields.filter (·.1 = name) with
  | [] => some none
  | [(_, value)] => some (some value)
  | _ => none

/-- What a record holds for each of its fields. -/
def fieldValues (names : List String) : Json → Option (List (Option Json))
  | object fields => names.mapM (uniqueField fields)
  | array items =>
      if items.length ≤ names.length then
        some (items.map some ++ List.replicate (names.length - items.length) none)
      else none
  | _ => none

/-- What a record holds, with the levels left for its fields. -/
def record? (names : List String) : Nat → Json → Option (Nat × List (Option Json))
  | 0, _ => none
  | levels + 1, json => (fieldValues names json).map (levels, ·)

/-! ## Lists -/

def items? : Nat → Json → Option (Nat × List Json)
  | levels + 1, array items => some (levels, items)
  | _, _ => none

/-- A list field; it is empty when the record does not hold it. -/
def listField {α : Type} (levels : Nat) (decode : Nat → Json → Option α) :
    Option Json → Option (List α)
  | none => some []
  | some json => do
      let (levels, items) ← items? levels json
      items.mapM (decode levels)

def text? (_ : Nat) (json : Json) : Option String := json.string?

/-- An entry of a dictionary, an array of its name and its value. -/
def pair? {α : Type} (decode : Json → Option α) : Json → Option (String × α)
  | array [string name, json] => (decode json).map (name, ·)
  | _ => none

/-! ## Variants without contents -/

/-- The name of a variant without contents. -/
def variantName? : Nat → Json → Option String
  | _, string name => some name
  | _ + 1, object [(name, null)] => some name
  | _, _ => none

/-- One of some named alternatives. -/
def choice? {α : Type} (alternatives : List (String × α)) (levels : Nat) (json : Json) :
    Option α := do
  alternatives.lookup (← variantName? levels json)

end ConfigLowering.Json
