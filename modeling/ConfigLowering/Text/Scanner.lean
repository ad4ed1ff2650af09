/-!
# Scanners

A scanner reads from the front of a list of characters and fails or gives a
result with the characters that are left. Alternatives start from the same
place. Repetition is bounded, so every scanner ends.
-/

namespace ConfigLowering.Text

abbrev Scanner (α : Type) := StateT (List Char) Option α

namespace Scanner

variable {α β : Type}

/-- The next character, which must satisfy a condition. -/
def one (accepts : Char → Bool) : Scanner Char := fun input =>
  match input with
  | [] => none
  | character :: rest => if accepts character then some (character, rest) else none

def exactly (character : Char) : Scanner Unit := do
  let _ ← one (· = character)

def word (text : String) : Scanner Unit := text.toList.forM exactly

/-- The next character if there is one; it is not taken. -/
def peek : Scanner (Option Char) := fun input => some (input.head?, input)

def atEnd : Scanner Bool := return (← peek).isNone

/-- The longest run of characters that satisfy a condition. -/
def span (accepts : Char → Bool) : Scanner (List Char) := fun input =>
  some (input.takeWhile accepts, input.dropWhile accepts)

/-- A run of at least one character. -/
def span1 (accepts : Char → Bool) : Scanner (List Char) := do
  let characters ← span accepts
  if characters.isEmpty then failure else return characters

def skip (accepts : Char → Bool) : Scanner Unit := do
  let _ ← span accepts

/-- Takes the character if it comes next; the answer says whether it did. -/
def accept (character : Char) : Scanner Bool :=
  (do exactly character; return true) <|> pure false

/-- Repeats a scanner until it fails, at most as often as the bound says. -/
def repeated (scanner : Scanner α) : Nat → Scanner (List α)
  | 0 => pure []
  | bound + 1 =>
      (do
        let item ← scanner
        return item :: (← repeated scanner bound)) <|> pure []

/-- One item or more with separators between them. -/
def separated (scanner : Scanner α) (separator : Scanner β) (bound : Nat) :
    Scanner (List α) := do
  let first ← scanner
  let rest ← repeated (do let _ ← separator; scanner) bound
  return first :: rest

/-- The result of a scanner that reads the whole text. -/
def readAll (scanner : Scanner α) (text : List Char) : Option α :=
  match StateT.run scanner text with
  | some (result, []) => some result
  | _ => none

end Scanner

/-! ## Digits -/

def digitValue (character : Char) : Nat := character.toNat - '0'.toNat

def readDigits (digits : List Char) : Nat :=
  digits.foldl (fun value digit => 10 * value + digitValue digit) 0

def isHexDigit (character : Char) : Bool :=
  character.isDigit || ('a' ≤ character && character ≤ 'f') ||
    ('A' ≤ character && character ≤ 'F')

def hexDigitValue (character : Char) : Nat :=
  if character.isDigit then digitValue character
  else if 'a' ≤ character then character.toNat - 'a'.toNat + 10
  else character.toNat - 'A'.toNat + 10

def readHexDigits (digits : List Char) : Nat :=
  digits.foldl (fun value digit => 16 * value + hexDigitValue digit) 0

end ConfigLowering.Text
