import ConfigLowering.Toml

/-!
# Writing TOML

A string takes the first form that holds it without escapes: quoted, literal,
long quoted, long literal. If none does it is quoted with escapes, over several
lines if it has line breaks.
-/

namespace ConfigLowering.Toml

/-! ## Strings -/

/-- The length of the longest run of a character. -/
def longestRun (character : Char) (text : List Char) : Nat :=
  (text.foldl (fun (longest, current) next =>
    let current := if next = character then current + 1 else 0
    (max longest current, current)) (0, 0)).1

/-- A control that needs an escape: all but the tab and the line break. -/
def needsCode (character : Char) : Bool :=
  (character < ' ' && character != '\t' && character != '\n') || character == '\x7f'

structure StringFeatures where
  hasCode : Bool
  hasBackslash : Bool
  hasLineBreak : Bool
  quotes : Nat
  apostrophes : Nat

def featuresOf (text : List Char) : StringFeatures where
  hasCode := text.any needsCode
  hasBackslash := text.contains '\\'
  hasLineBreak := text.contains '\n'
  quotes := longestRun '"' text
  apostrophes := longestRun '\'' text

inductive StringForm where
  | quoted
  | literal
  | longQuoted
  | longLiteral
  deriving DecidableEq, Repr

def StringFeatures.form (features : StringFeatures) : StringForm :=
  if !features.hasCode && !features.hasBackslash && !features.hasLineBreak &&
      features.quotes = 0 then .quoted
  else if !features.hasCode && !features.hasLineBreak && features.apostrophes = 0 then
    .literal
  else if !features.hasCode && !features.hasBackslash && features.quotes < 3 then .longQuoted
  else if !features.hasCode && features.apostrophes < 3 then .longLiteral
  else if features.hasLineBreak then .longQuoted
  else .quoted

def upperHexDigit (value : Nat) : Char := "0123456789ABCDEF".toList.getD value '0'

/-- The escape of a character that has one in every quoted form. -/
def escape? (character : Char) : Option (List Char) :=
  match character with
  | '\\' => some ['\\', '\\']
  | '\x08' => some ['\\', 'b']
  | '\t' => some ['\\', 't']
  | '\x0c' => some ['\\', 'f']
  | '\r' => some ['\\', 'r']
  | _ =>
      if needsCode character then
        some ['\\', 'u', '0', '0', upperHexDigit (character.toNat / 16),
          upperHexDigit (character.toNat % 16)]
      else none

def quotedCharacters (text : List Char) : List Char :=
  text.flatMap fun character =>
    if character = '"' then ['\\', '"']
    else if character = '\n' then ['\\', 'n']
    else (escape? character).getD [character]

def quoted (text : List Char) : List Char := '"' :: quotedCharacters text ++ ['"']

/-- Escapes each quote that would be the third in a row. -/
def longQuotedCharacters : Nat → List Char → List Char
  | _, [] => []
  | quotes, character :: rest =>
      if character = '"' then
        if quotes = 2 then '\\' :: '"' :: longQuotedCharacters 0 rest
        else '"' :: longQuotedCharacters (quotes + 1) rest
      else (escape? character).getD [character] ++ longQuotedCharacters 0 rest

def longText (quote : Char) (hasLineBreak : Bool) (characters : List Char) : List Char :=
  let quotes := List.replicate 3 quote
  quotes ++ (if hasLineBreak then ['\n'] else []) ++ characters ++ quotes

def stringText (text : String) : String :=
  let characters := text.toList
  let features := featuresOf characters
  String.ofList
    (match features.form with
    | .quoted => quoted characters
    | .literal => '\'' :: characters ++ ['\'']
    | .longQuoted =>
        longText '"' features.hasLineBreak (longQuotedCharacters 0 characters)
    | .longLiteral => longText '\'' features.hasLineBreak characters)

/-! ## Keys, lists and tables -/

def isBareKey (key : String) : Bool :=
  !key.isEmpty && key.toList.all fun character =>
    character.isAlphanum || character == '-' || character == '_'

def keyText (key : String) : String :=
  if isBareKey key then key else String.ofList (quoted key.toList)

/-- A list of two strings or more has a line for each. -/
def listText : List String → String
  | [] => "[]"
  | [item] => "[" ++ stringText item ++ "]"
  | items => "[\n" ++ String.join (items.map fun item => "    " ++ stringText item ++ ",\n") ++ "]"

def booleanText (value : Bool) : String := if value then "true" else "false"

def entryText (key value : String) : String := keyText key ++ " = " ++ value ++ "\n"

/-- A header and the lines of its entries. -/
def tableText (header : String) (entries : List (String × String)) : String :=
  "[" ++ header ++ "]\n" ++ String.join (entries.map fun (key, value) => entryText key value)

end ConfigLowering.Toml
