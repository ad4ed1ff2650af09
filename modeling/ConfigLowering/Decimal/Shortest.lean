/-!
# Shortest decimals

The decimal with the fewest digits that reads back as a given floating point
number, and among those the nearest. All of it is exact arithmetic on natural
numbers: a candidate is one of the two neighbours of the number on the grid of
decimals with so many digits.
-/

namespace ConfigLowering.Decimal

/-! ## Floating point numbers -/

/-- The magnitude `significand * 2 ^ exponent` of a finite number. -/
structure Magnitude where
  significand : Nat
  exponent : Int
  deriving DecidableEq, Repr

/-- What the significand of a number has besides the stored bits. -/
def hiddenBit : Nat := 0x10000000000000

def signBit : Nat := 0x8000000000000000

def exponentMask : Nat := 0x7ff

def storedSignificand (number : Float) : Nat :=
  number.toBits.toNat % hiddenBit

def storedExponent (number : Float) : Nat :=
  number.toBits.toNat / hiddenBit % (exponentMask + 1)

def isNegative (number : Float) : Bool := signBit ≤ number.toBits.toNat

def isFinite (number : Float) : Bool := storedExponent number != exponentMask

def isNan (number : Float) : Bool :=
  !isFinite number && storedSignificand number != 0

/-- The magnitude of a finite number; the least exponent has no hidden bit. -/
def magnitude (number : Float) : Magnitude :=
  if storedExponent number = 0 then ⟨storedSignificand number, -1074⟩
  else ⟨hiddenBit + storedSignificand number, storedExponent number - 1075⟩

/-! ## Exact comparison -/

/-- A nonnegative rational number; the denominator is positive. -/
structure Ratio where
  numerator : Nat
  denominator : Nat
  deriving DecidableEq, Repr

namespace Ratio

/-- `count * base ^ exponent`. -/
def scaled (count base : Nat) (exponent : Int) : Ratio :=
  ⟨count * Nat.pow base exponent.toNat, Nat.pow base (-exponent).toNat⟩

def lessEqual (first second : Ratio) : Bool :=
  first.numerator * second.denominator ≤ second.numerator * first.denominator

def less (first second : Ratio) : Bool := !second.lessEqual first

end Ratio

/-! ## The numbers that round to a magnitude -/

/-- Whether a ratio rounds to a magnitude: half way to the next number on
either side, the ends included when the significand is even. Below a power of
two the numbers are twice as dense. -/
def roundsTo (magnitude : Magnitude) (ratio : Ratio) : Bool :=
  let dense := magnitude.significand = hiddenBit && -1074 < magnitude.exponent
  let low := Ratio.scaled (4 * magnitude.significand - if dense then 1 else 2) 2
    (magnitude.exponent - 2)
  let high := Ratio.scaled (4 * magnitude.significand + 2) 2 (magnitude.exponent - 2)
  if magnitude.significand % 2 = 0 then low.lessEqual ratio && ratio.lessEqual high
  else low.less ratio && ratio.less high

/-! ## Numerals -/

/-- The number `digits * 10 ^ exponent`. -/
structure Numeral where
  digits : Nat
  exponent : Int
  deriving DecidableEq, Repr

namespace Numeral

def ratio (numeral : Numeral) : Ratio := .scaled numeral.digits 10 numeral.exponent

/-- Drops trailing zeros, as many as the given bound. -/
def trim : Nat → Numeral → Numeral
  | 0, numeral => numeral
  | bound + 1, numeral =>
      if numeral.digits ≠ 0 ∧ numeral.digits % 10 = 0 then
        trim bound ⟨numeral.digits / 10, numeral.exponent + 1⟩
      else numeral

end Numeral

def digitCount (number : Nat) : Nat := (Nat.toDigits 10 number).length

/-- The exponent of the first digit of a positive magnitude. No magnitude is
below `10 ^ -324`, so scaling by `10 ^ 324` loses no leading digit. -/
def firstDigitExponent (magnitude : Magnitude) : Int :=
  let ratio := Ratio.scaled magnitude.significand 2 magnitude.exponent
  digitCount (ratio.numerator * Nat.pow 10 324 / ratio.denominator) - 325

/-- The neighbours of a magnitude on the grid of step `10 ^ exponent`, the
nearer one first; of two that are as near, the even one comes first. -/
def neighbours (magnitude : Magnitude) (exponent : Int) : List Numeral :=
  let value := Ratio.scaled magnitude.significand 2 magnitude.exponent
  let step := Ratio.scaled 1 10 exponent
  let numerator := value.numerator * step.denominator
  let denominator := value.denominator * step.numerator
  let below := numerator / denominator
  let remainder := numerator % denominator
  let lowerFirst :=
    if 2 * remainder = denominator then below % 2 = 0 else 2 * remainder < denominator
  if lowerFirst then [⟨below, exponent⟩, ⟨below + 1, exponent⟩]
  else [⟨below + 1, exponent⟩, ⟨below, exponent⟩]

/-- Seventeen digits always suffice. -/
def mostDigits : Nat := 17

/-- The shortest numeral of a positive magnitude. -/
def shortestPositive (magnitude : Magnitude) : Numeral :=
  let first := firstDigitExponent magnitude
  let candidates := (List.range mostDigits).flatMap fun (more : Nat) =>
    neighbours magnitude (first - more)
  match candidates.find? fun numeral => roundsTo magnitude numeral.ratio with
  | some numeral => numeral.trim mostDigits
  | none => ⟨0, 0⟩

/-- The shortest numeral of the magnitude of a finite number. -/
def shortest (number : Float) : Numeral :=
  let magnitude := magnitude number
  if magnitude.significand = 0 then ⟨0, 0⟩ else shortestPositive magnitude

end ConfigLowering.Decimal
