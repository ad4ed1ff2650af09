import ConfigLowering.Decimal.Layout
import ConfigLowering.Json

/-!
# Writing JSON

Compact text without blanks, and pretty text with two blanks for each level.
-/

namespace ConfigLowering.Json

/-! ## Numbers and strings -/

/-- Decimals have a point in place from `1e-5` to below `1e16`. -/
def realLayout : Decimal.Layout := ⟨-5, 15⟩

/-- Only finite numbers can be written. -/
def realText (number : Float) : String :=
  if Decimal.isFinite number then realLayout.text number else "null"

def hexDigit (value : Nat) : Char := "0123456789abcdef".toList.getD value '0'

def escaped (character : Char) : List Char :=
  match character with
  | '"' => ['\\', '"']
  | '\\' => ['\\', '\\']
  | '\x08' => ['\\', 'b']
  | '\t' => ['\\', 't']
  | '\n' => ['\\', 'n']
  | '\x0c' => ['\\', 'f']
  | '\r' => ['\\', 'r']
  | _ =>
      if character < ' ' then
        ['\\', 'u', '0', '0', hexDigit (character.toNat / 16), hexDigit (character.toNat % 16)]
      else [character]

def stringText (text : String) : String :=
  String.ofList ('"' :: text.toList.flatMap escaped ++ ['"'])

/-- The text of a leaf. -/
def leafText : Json → String
  | null | undefined => "null"
  | bool true => "true"
  | bool false => "false"
  | integer value => toString value
  | real value => realText value
  | string text => stringText text
  | array _ => "[]"
  | object _ => "\x7b\x7d"

/-! ## Compact text -/

mutual

def compact : Json → String
  | array items => "[" ++ compactItems items ++ "]"
  | object fields => "\x7b" ++ compactFields fields ++ "\x7d"
  | leaf => leafText leaf

def compactItems : List Json → String
  | [] => ""
  | [item] => item.compact
  | item :: items => item.compact ++ "," ++ compactItems items

def compactFields : List (String × Json) → String
  | [] => ""
  | [(name, item)] => stringText name ++ ":" ++ item.compact
  | (name, item) :: fields =>
      stringText name ++ ":" ++ item.compact ++ "," ++ compactFields fields

end

/-! ## Pretty text -/

/-- A new line at a level. -/
def lineBreak (level : Nat) : String := "\n" ++ String.ofList (List.replicate (2 * level) ' ')

mutual

def prettyAt (level : Nat) : Json → String
  | array (item :: items) =>
      "[" ++ prettyItems (level + 1) (item :: items) ++ lineBreak level ++ "]"
  | object (field :: fields) =>
      "\x7b" ++ prettyFields (level + 1) (field :: fields) ++ lineBreak level ++ "\x7d"
  | leaf => leafText leaf

def prettyItems (level : Nat) : List Json → String
  | [] => ""
  | [item] => lineBreak level ++ item.prettyAt level
  | item :: items => lineBreak level ++ item.prettyAt level ++ "," ++ prettyItems level items

def prettyFields (level : Nat) : List (String × Json) → String
  | [] => ""
  | [(name, item)] => lineBreak level ++ stringText name ++ ": " ++ item.prettyAt level
  | (name, item) :: fields =>
      lineBreak level ++ stringText name ++ ": " ++ item.prettyAt level ++ "," ++
        prettyFields level fields

end

def pretty (json : Json) : String := json.prettyAt 0

end ConfigLowering.Json
