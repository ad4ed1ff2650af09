import ConfigLowering.Decimal.Literal
import ConfigLowering.Decimal.Shortest
import ConfigLowering.Text.CodeRange
import ConfigLowering.Text.Scanner
import ConfigLowering.Toml.Building

/-!
# Reading TOML
-/

namespace ConfigLowering.Toml

open Text Text.Scanner

/-! ## Blanks, comments and line ends -/

def isBlank (character : Char) : Bool := character == ' ' || character == '\t'

def blanks : Scanner Unit := skip isBlank

def newline : Scanner Unit := do
  let _ ← accept '\r'
  exactly '\n'

/-- What a comment may hold: no control but the tab. -/
def isCommentCharacter (character : Char) : Bool :=
  character == '\t' || (' ' ≤ character && character ≤ '~') || !isAscii character

def comment : Scanner Unit := do
  exactly '#'
  skip isCommentCharacter

def lineEnd : Scanner Unit := do
  if !(← atEnd) then newline

/-- What may stand behind an entry or a header. -/
def lineRest : Scanner Unit := do
  blanks
  let _ ← optional comment
  lineEnd

/-- Blanks, line ends and comments inside an array. -/
def spacing (bound : Nat) : Scanner Unit := do
  let _ ← repeated ((do let _ ← one isBlank) <|> newline <|> (do comment; newline)) bound

/-! ## Strings -/

def isScalarValue (code : Nat) : Bool :=
  code < 0xd800 || (0xe000 ≤ code && code < 0x110000)

/-- A character given by exactly so many hexadecimal digits. -/
def codePoint (count : Nat) : Scanner Char := do
  let digits ← (List.replicate count ()).mapM fun () => one isHexDigit
  let code := readHexDigits digits
  if isScalarValue code then return Char.ofNat code else failure

def escape : Scanner Char := do
  exactly '\\'
  match ← one fun _ => true with
  | 'b' => return '\x08'
  | 't' => return '\t'
  | 'n' => return '\n'
  | 'f' => return '\x0c'
  | 'r' => return '\r'
  | '"' => return '"'
  | '\\' => return '\\'
  | 'u' => codePoint 4
  | 'U' => codePoint 8
  | _ => failure

def isBasicCharacter (character : Char) : Bool :=
  isCommentCharacter character && character != '"' && character != '\\'

def isLiteralCharacter (character : Char) : Bool :=
  isCommentCharacter character && character != '\''

def basicString (bound : Nat) : Scanner String := do
  exactly '"'
  let characters ← repeated (one isBasicCharacter <|> escape) bound
  exactly '"'
  return String.ofList characters

def literalString : Scanner String := do
  exactly '\''
  let characters ← span isLiteralCharacter
  exactly '\''
  return String.ofList characters

/-- One or two quotes that do not end a string of several lines. -/
def innerQuotes (quote : Char) : Scanner (List Char) := do
  let quotes ← span1 (· = quote)
  if quotes.length < 3 then return quotes else failure

/-- The end of a string of several lines: three quotes, with up to two quotes
of the string in front of them. -/
def closingQuotes (quote : Char) : Scanner (List Char) := fun input =>
  let count := min 5 (input.takeWhile (· = quote)).length
  if 3 ≤ count then some (List.replicate (count - 3) quote, input.drop count) else none

/-- A backslash at the end of a line takes away all blanks and line ends up to
the next character. -/
def lineContinuation (bound : Nat) : Scanner (List Char) := do
  exactly '\\'
  blanks
  newline
  let _ ← repeated ((do let _ ← one isBlank) <|> newline) bound
  return []

def lineBreak : Scanner (List Char) := do
  newline
  return ['\n']

/-- A string between triple quotes; a line break right after the opening is
not part of it. -/
def longString (quote : Char) (piece : Scanner (List Char)) (bound : Nat) :
    Scanner String := do
  word (String.ofList [quote, quote, quote])
  let _ ← optional newline
  let pieces ← repeated (lineBreak <|> innerQuotes quote <|> piece) bound
  let quotes ← closingQuotes quote
  return String.ofList (pieces.flatten ++ quotes)

def basicPiece (bound : Nat) : Scanner (List Char) :=
  span1 isBasicCharacter <|> lineContinuation bound <|> ((fun c => [c]) <$> escape)

def anyString (bound : Nat) : Scanner String :=
  longString '"' (basicPiece bound) bound <|> basicString bound <|>
    longString '\'' (span1 isLiteralCharacter) bound <|> literalString

/-! ## Keys -/

def isBareKeyCharacter (character : Char) : Bool :=
  character.isAlphanum || character == '-' || character == '_'

def simpleKey (bound : Nat) : Scanner String :=
  basicString bound <|> literalString <|> (String.ofList <$> span1 isBareKeyCharacter)

/-- The number of keys that dots may join, and one more than the number of
containers that values may nest. -/
def greatestDepth : Nat := 80

def dottedKey (bound : Nat) : Scanner DottedKey := do
  let keys ← separated
    (do blanks; let key ← simpleKey bound; blanks; return key) (exactly '.') bound
  match keys.getLast? with
  | some key =>
      if keys.length < greatestDepth then return ⟨keys.dropLast, key⟩ else failure
  | none => failure

/-! ## Dates and times -/

def twoDigits (least greatest : Nat) : Scanner (List Char) := do
  let digits ← [(), ()].mapM fun () => one Char.isDigit
  let value := readDigits digits
  if least ≤ value ∧ value ≤ greatest then return digits else failure

def isLeapYear (year : Nat) : Bool :=
  (year % 4 = 0 && year % 100 ≠ 0) || year % 400 = 0

def daysOfMonth (year month : Nat) : Nat :=
  if month = 2 then if isLeapYear year then 29 else 28
  else if month = 4 ∨ month = 6 ∨ month = 9 ∨ month = 11 then 30
  else 31

def date : Scanner (List Char) := do
  let year ← [(), (), (), ()].mapM fun () => one Char.isDigit
  exactly '-'
  let month ← twoDigits 1 12
  exactly '-'
  let day ← twoDigits 1 (daysOfMonth (readDigits year) (readDigits month))
  return year ++ ['-'] ++ month ++ ['-'] ++ day

/-- Fractions of a second count down to nanoseconds; zeros at the end go. -/
def secondFraction : Scanner (List Char) := do
  exactly '.'
  let digits ← span1 Char.isDigit
  let kept := ((digits.take 9).reverse.dropWhile (· = '0')).reverse
  return if kept.isEmpty then [] else '.' :: kept

def time : Scanner (List Char) := do
  let hour ← twoDigits 0 23
  exactly ':'
  let minute ← twoDigits 0 59
  exactly ':'
  let second ← twoDigits 0 60
  let fraction ← optional secondFraction
  return hour ++ [':'] ++ minute ++ [':'] ++ second ++ fraction.getD []

/-- An offset of zero has a plus sign. -/
def offset : Scanner (List Char) :=
  (do
    let _ ← one fun character => character == 'Z' || character == 'z'
    return ['Z']) <|>
  (do
    let sign ← one fun character => character == '+' || character == '-'
    let hour ← twoDigits 0 23
    exactly ':'
    let minute ← twoDigits 0 59
    let zero := readDigits hour = 0 ∧ readDigits minute = 0
    return (if zero then '+' else sign) :: hour ++ [':'] ++ minute)

def timeAfterDate : Scanner (List Char) := do
  let _ ← one fun character => character == 'T' || character == 't' || character == ' '
  let time ← time
  let offset ← optional offset
  return 'T' :: time ++ offset.getD []

def dateOrTime : Scanner String :=
  String.ofList <$>
    ((do
      let date ← date
      let time ← optional timeAfterDate
      return date ++ time.getD []) <|> time)

/-! ## Numbers -/

/-- Digits with single underscores between them. -/
def digitRun (isDigit : Char → Bool) (bound : Nat) : Scanner (List Char) := do
  let first ← one isDigit
  let rest ← repeated (one isDigit <|> (do exactly '_'; one isDigit)) bound
  return first :: rest

def sign : Scanner Bool :=
  (do
    exactly '-'
    return true) <|>
  (do
    let _ ← accept '+'
    return false)

/-- Digits of a decimal integer; a zero in front stands alone. -/
def decimalDigits (bound : Nat) : Scanner (List Char) := do
  match ← peek with
  | some '0' =>
      exactly '0'
      return ['0']
  | _ => digitRun Char.isDigit bound

def boundedInteger (value : Int) : Scanner Toml :=
  if Decimal.isInt64 value then return .integer value else failure

def radixInteger (mark : Char) (radix : Nat) (isDigit : Char → Bool) (bound : Nat) :
    Scanner Toml := do
  exactly '0'
  exactly mark
  let digits ← digitRun isDigit bound
  boundedInteger (digits.foldl (fun value digit => radix * value + hexDigitValue digit) 0)

def anyInteger (bound : Nat) : Scanner Toml :=
  radixInteger 'x' 16 isHexDigit bound <|>
  radixInteger 'o' 8 (fun digit => '0' ≤ digit && digit ≤ '7') bound <|>
  radixInteger 'b' 2 (fun digit => digit == '0' || digit == '1') bound <|>
  (do
    let negative ← sign
    let value : Int := readDigits (← decimalDigits bound)
    boundedInteger (if negative then -value else value))

def exponentPart (bound : Nat) : Scanner Int := do
  let _ ← one fun character => character == 'e' || character == 'E'
  let negative ← sign
  let value : Int := readDigits (← digitRun Char.isDigit bound)
  return if negative then -value else value

def fractionPart (bound : Nat) : Scanner (List Char) := do
  exactly '.'
  digitRun Char.isDigit bound

/-- Half way between the greatest floating point number and the power of two
above it. -/
def leastTooLarge : Decimal.Ratio := .scaled 0x3fffffffffffff 2 970

/-- Whether `digits * 10 ^ exponent` is too large for a floating point number. -/
def isTooLarge (digits : Nat) (exponent : Int) : Bool :=
  let places := Decimal.digitCount digits + exponent
  if digits = 0 || places < 300 then false
  else if 400 < places then true
  else leastTooLarge.lessEqual (.scaled digits 10 exponent)

/-- A number that is too large is refused unless it is negative. -/
def numericFloat (bound : Nat) : Scanner Toml := do
  let negative ← sign
  let whole ← decimalDigits bound
  let fraction ← optional (fractionPart bound)
  let exponent ← optional (exponentPart bound)
  if fraction.isNone && exponent.isNone then failure
  let fraction := fraction.getD []
  let exponent : Int := exponent.getD 0 - fraction.length
  if !negative && isTooLarge (readDigits (whole ++ fraction)) exponent then failure
  return .float

def specialFloat : Scanner Toml := do
  let _ ← sign
  word "inf" <|> word "nan"
  return .float

/-! ## Values -/

def scalar (bound : Nat) : Scanner Toml :=
  (Toml.string <$> anyString bound) <|> (Toml.datetime <$> dateOrTime) <|>
  numericFloat bound <|> specialFloat <|> anyInteger bound <|>
  (do
    word "true"
    return Toml.boolean true) <|>
  (do
    word "false"
    return Toml.boolean false)

def entryWith (value : Scanner Toml) (bound : Nat) : Scanner TomlEntry := do
  let place ← dottedKey bound
  exactly '='
  blanks
  return { place, value := ← value }

def arrayOf (value : Scanner Toml) (bound : Nat) : Scanner Toml := do
  exactly '['
  let items ← optional (separated
    (do spacing bound; let item ← value; spacing bound; return item) (exactly ',') bound)
  if items.isSome then
    let _ ← accept ','
  spacing bound
  exactly ']'
  return .array (items.getD [])

def inlineTableOf (value : Scanner Toml) (bound : Nat) : Scanner Toml := do
  exactly '\x7b'
  let entries ← optional (separated
    (do let entry ← entryWith value bound; blanks; return entry) (exactly ',') bound)
  blanks
  exactly '\x7d'
  match inlineTable (entries.getD []) with
  | some result => return result
  | none => failure

/-- A value, with the number of containers that it may still nest. -/
def value (bound : Nat) : Nat → Scanner Toml
  | 0 => scalar bound
  | depth + 1 => do
      match ← peek with
      | some '[' => arrayOf (value bound depth) bound
      | some '\x7b' => inlineTableOf (value bound depth) bound
      | _ => scalar bound

/-! ## Documents -/

inductive Line where
  | blank
  | entry (entry : TomlEntry)
  | header (place : DottedKey) (isElement : Bool)

def header (bound : Nat) : Scanner Line :=
  (do
    word "[["
    let place ← dottedKey bound
    word "]]"
    lineRest
    return .header place true) <|>
  (do
    exactly '['
    let place ← dottedKey bound
    exactly ']'
    lineRest
    return .header place false)

def entryLine (bound : Nat) : Scanner Line := do
  let entry ← entryWith (value bound (greatestDepth - 1)) bound
  lineRest
  return .entry entry

def line (bound : Nat) : Scanner Line := do
  blanks
  match ← peek with
  | none => failure
  | some '#' =>
      comment
      lineEnd
      return .blank
  | some '[' => header bound
  | some '\n' | some '\r' =>
      newline
      return .blank
  | some _ => entryLine bound

/-- The entries before the first header, and each header with its entries. -/
def sectionsOf : List Line → List TomlEntry × List TomlSection
  | [] => ([], [])
  | .blank :: lines => sectionsOf lines
  | .entry entry :: lines =>
      let (entries, sections) := sectionsOf lines
      (entry :: entries, sections)
  | .header place isElement :: lines =>
      let (entries, sections) := sectionsOf lines
      ([], { place, isElement, entries } :: sections)

def byteOrderMark : Char := '\ufeff'

def lines (bound : Nat) : Scanner (List Line) := do
  let _ ← accept byteOrderMark
  let lines ← repeated (line bound) bound
  blanks
  return lines

/-- The entries of a TOML text. -/
def parse (text : String) : Option Entries := do
  let characters := text.toList
  let lines ← readAll (lines characters.length) characters
  let (first, sections) := sectionsOf lines
  document first sections

end ConfigLowering.Toml
