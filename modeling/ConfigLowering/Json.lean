/-!
# JSON trees

A number is an integer of 64 bits or a floating point number, as its literal
says. A well-formed literal that denotes nothing, such as a number that is too
large or a text with half a surrogate pair, stands in the tree as `undefined`,
and so does an object with such a key.
-/

namespace ConfigLowering

inductive Json where
  | null
  | bool (value : Bool)
  | integer (value : Int)
  | real (value : Float)
  | string (text : String)
  | array (items : List Json)
  | object (fields : List (String × Json))
  | undefined

instance : Inhabited Json := ⟨.null⟩

namespace Json

def isNull : Json → Bool
  | null => true
  | _ => false

def string? : Json → Option String
  | string text => some text
  | _ => none

def bool? : Json → Option Bool
  | bool value => some value
  | _ => none

def array? : Json → Option (List Json)
  | array items => some items
  | _ => none

def object? : Json → Option (List (String × Json))
  | object fields => some fields
  | _ => none

/-- The first field of a name, unless it is null. -/
def field? (json : Json) (name : String) : Option Json :=
  match json with
  | object fields => (fields.lookup name).filter (!·.isNull)
  | _ => none

def ofOption {α : Type} (encode : α → Json) : Option α → Json
  | none => null
  | some value => encode value

def ofList {α : Type} (encode : α → Json) (items : List α) : Json :=
  array (items.map encode)

def pair (first second : Json) : Json := array [first, second]

end Json

end ConfigLowering
