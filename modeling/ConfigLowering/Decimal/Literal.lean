import ConfigLowering.Text.Scanner

/-!
# Decimal literals

What a number written in digits denotes: an integer that fits into 64 bits, or
a floating point number. The digits go into a significand of 64 bits first;
digits that do not fit only move the exponent, or do nothing behind the point.
The significand is then scaled by a power of ten in floating point.
-/

namespace ConfigLowering.Decimal

open Text

structure Literal where
  negative : Bool
  integerDigits : List Char
  fractionDigits : Option (List Char)
  /-- The digits of the exponent and whether it is negative. -/
  exponent : Option (Bool × List Char)
  deriving DecidableEq, Repr

inductive Number where
  | integer (value : Int)
  | real (value : Float)

/-! ## Significand -/

/-- A significand, and how many places its last digit stands left of the point. -/
structure Significand where
  value : Nat
  places : Int
  /-- Whether a digit has been left out. -/
  full : Bool
  deriving DecidableEq, Repr

namespace Significand

def fits (significand : Significand) (digit : Char) : Bool :=
  10 * significand.value + digitValue digit < UInt64.size

def append (significand : Significand) (digit : Char) : Nat :=
  10 * significand.value + digitValue digit

/-- Once a digit before the point is left out, all that follow it are. -/
def pushInteger (significand : Significand) (digit : Char) : Significand :=
  if significand.full || !significand.fits digit then
    { significand with places := significand.places + 1, full := true }
  else { significand with value := significand.append digit }

def pushFraction (significand : Significand) (digit : Char) : Significand :=
  if significand.full || !significand.fits digit then { significand with full := true }
  else
    { significand with
      value := significand.append digit
      places := significand.places - 1 }

def ofInteger (digits : List Char) : Significand :=
  digits.foldl pushInteger ⟨0, 0, false⟩

def pushFractions (significand : Significand) (digits : List Char) : Significand :=
  digits.foldl pushFraction { significand with full := false }

end Significand

/-! ## Scaling -/

/-- The greatest power of ten that is a floating point number. -/
def greatestPower : Nat := 308

def powerOfTen (exponent : Nat) : Float := Float.ofScientific 1 false exponent

/-- Multiplies by a power of ten. Nothing comes of a number that grows too
large. A significand is down to zero after three steps, so four are enough. -/
def scaleByPower : Nat → Float → Int → Option Float
  | 0, number, _ => some number
  | steps + 1, number, exponent =>
      if exponent.natAbs ≤ greatestPower then
        if 0 ≤ exponent then
          let scaled := number * powerOfTen exponent.natAbs
          if scaled.isInf then none else some scaled
        else some (number / powerOfTen exponent.natAbs)
      else if number == 0 then some number
      else if 0 ≤ exponent then none
      else
        scaleByPower steps (number / powerOfTen greatestPower) (exponent + greatestPower)

def signed (negative : Bool) (number : Float) : Float :=
  if negative then -number else number

def readReal (negative : Bool) (significand : Significand) (exponent : Int) :
    Option Number :=
  (scaleByPower 4 (UInt64.ofNat significand.value).toFloat
    (significand.places + exponent)).map fun number => .real (signed negative number)

/-- Whether a signed integer of 64 bits can hold a value. -/
def isInt64 (value : Int) : Bool := -0x8000000000000000 ≤ value && value < 0x8000000000000000

def readInteger (negative : Bool) (value : Nat) : Number :=
  if !negative then .integer value
  else if 0 < value && isInt64 (-value) then .integer (-value)
  else .real (-(UInt64.ofNat value).toFloat)

def Literal.exponentValue (literal : Literal) : Int :=
  match literal.exponent with
  | none => 0
  | some (true, digits) => -readDigits digits
  | some (false, digits) => readDigits digits

/-- The number that a literal denotes, if it is not too large. -/
def Literal.read (literal : Literal) : Option Number :=
  let significand := Significand.ofInteger literal.integerDigits
  match literal.fractionDigits, literal.exponent with
  | none, none =>
      if significand.full then readReal literal.negative significand 0
      else some (readInteger literal.negative significand.value)
  | fraction, _ =>
      readReal literal.negative (significand.pushFractions (fraction.getD []))
        literal.exponentValue

end ConfigLowering.Decimal
