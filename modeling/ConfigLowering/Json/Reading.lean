import ConfigLowering.Decimal.Literal
import ConfigLowering.Json

/-!
# Reading JSON

The strict grammar: no trailing text, no comments, no controls inside strings.
-/

namespace ConfigLowering.Json

open Text Text.Scanner

/-! ## Blanks and words -/

def isBlank (character : Char) : Bool :=
  character == ' ' || character == '\n' || character == '\t' || character == '\r'

def blanks : Scanner Unit := skip isBlank

def token (scanner : Scanner α) : Scanner α := do
  let result ← scanner
  blanks
  return result

/-! ## Numbers -/

def integerDigits : Scanner (List Char) :=
  (do
    exactly '0'
    return ['0']) <|>
  (do
    let first ← one Char.isDigit
    return first :: (← span Char.isDigit))

def fraction : Scanner (List Char) := do
  exactly '.'
  span1 Char.isDigit

def exponent : Scanner (Bool × List Char) := do
  let _ ← one fun character => character == 'e' || character == 'E'
  let sign ← optional (one fun character => character == '+' || character == '-')
  return (sign == some '-', ← span1 Char.isDigit)

def numberLiteral : Scanner Decimal.Literal := do
  let negative ← accept '-'
  let integerDigits ← integerDigits
  let fractionDigits ← optional fraction
  let exponent ← optional exponent
  return { negative, integerDigits, fractionDigits, exponent }

def number : Scanner Json := do
  let literal ← numberLiteral
  -- a digit, point or exponent mark here belongs to no number
  match ← peek with
  | some character =>
      if character.isDigit || character == '.' || character == 'e' || character == 'E' then
        failure
  | none => pure ()
  match literal.read with
  | some (.integer value) => return .integer value
  | some (.real value) => return .real value
  | none => return .undefined

/-! ## Strings -/

/-- A character of a string, or a 16 bit unit given by its escape. -/
inductive StringUnit where
  | plain (character : Char)
  | unit (value : Nat)
  deriving DecidableEq, Repr

def escapedCharacter? : Char → Option Char
  | '"' => some '"'
  | '\\' => some '\\'
  | '/' => some '/'
  | 'b' => some '\x08'
  | 'f' => some '\x0c'
  | 'n' => some '\n'
  | 'r' => some '\r'
  | 't' => some '\t'
  | _ => none

/-- The units up to the closing quote. -/
def stringUnits : List Char → Option (List StringUnit × List Char)
  | '"' :: rest => some ([], rest)
  | '\\' :: 'u' :: first :: second :: third :: fourth :: rest => do
      let digits := [first, second, third, fourth]
      guard (digits.all isHexDigit)
      let (units, rest) ← stringUnits rest
      return (.unit (readHexDigits digits) :: units, rest)
  | '\\' :: mark :: rest => do
      let character ← escapedCharacter? mark
      let (units, rest) ← stringUnits rest
      return (.plain character :: units, rest)
  | character :: rest => do
      guard (' ' ≤ character)
      let (units, rest) ← stringUnits rest
      return (.plain character :: units, rest)
  | [] => none

def isHighSurrogate (value : Nat) : Bool := 0xd800 ≤ value && value < 0xdc00

def isLowSurrogate (value : Nat) : Bool := 0xdc00 ≤ value && value < 0xe000

/-- The characters of the units; half a surrogate pair is no character. -/
def charactersOfUnits : List StringUnit → Option (List Char)
  | [] => some []
  | .plain character :: units => (charactersOfUnits units).map (character :: ·)
  | .unit high :: .unit low :: units =>
      if isHighSurrogate high then
        if isLowSurrogate low then
          (charactersOfUnits units).map
            (Char.ofNat (0x10000 + (high - 0xd800) * 0x400 + (low - 0xdc00)) :: ·)
        else none
      else if isLowSurrogate high then none
      else (charactersOfUnits (.unit low :: units)).map (Char.ofNat high :: ·)
  | .unit value :: units =>
      if isHighSurrogate value || isLowSurrogate value then none
      else (charactersOfUnits units).map (Char.ofNat value :: ·)

/-- A quoted string; its text is missing if the units are no characters. -/
def quotedText : Scanner (Option String) := do
  exactly '"'
  let units ← stringUnits
  return (charactersOfUnits units).map String.ofList

/-! ## Values -/

/-- A value, with bounds on the nesting and on the number of parts of one
container. Both are at most the length of the text. -/
def value (parts : Nat) : Nat → Scanner Json
  | 0 => failure
  | nesting + 1 => token do
      match ← peek with
      | some 'n' =>
          word "null"
          return .null
      | some 't' =>
          word "true"
          return .bool true
      | some 'f' =>
          word "false"
          return .bool false
      | some '"' =>
          match ← quotedText with
          | some text => return .string text
          | none => return .undefined
      | some '[' =>
          token (exactly '[')
          if ← accept ']' then return .array []
          let items ← separated (value parts nesting) (token (exactly ',')) parts
          exactly ']'
          return .array items
      | some '\x7b' =>
          token (exactly '\x7b')
          if ← accept '\x7d' then return .object []
          let fields ← separated (fieldWith (value parts nesting)) (token (exactly ',')) parts
          exactly '\x7d'
          match fields.mapM fun (name, item) => name.map (·, item) with
          | some fields => return .object fields
          | none => return .undefined
      | _ => number
where
  fieldWith (item : Scanner Json) : Scanner (Option String × Json) := do
    let name ← token quotedText
    token (exactly ':')
    return (name, ← item)

/-- The tree of a JSON text. -/
def parse (text : String) : Option Json :=
  let characters := text.toList
  readAll (do blanks; value characters.length (characters.length + 1)) characters

end ConfigLowering.Json
