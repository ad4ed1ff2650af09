import ConfigLowering.Decimal.Shortest

/-!
# Layout of decimals

How the digits of a decimal are written: with a point in place as long as the
exponent of the first digit is moderate, and otherwise with an exponent.
-/

namespace ConfigLowering.Decimal

structure Layout where
  /-- The least exponent of the first digit written without an exponent. -/
  leastPlain : Int
  /-- The greatest exponent of the first digit written without an exponent. -/
  greatestPlain : Int
  deriving DecidableEq, Repr

namespace Layout

def zeros (count : Nat) : List Char := List.replicate count '0'

/-- Digits with a point; there is at least one digit on each side of it. -/
def plain (digits : List Char) (exponent : Int) : List Char :=
  if 0 ≤ exponent then digits ++ zeros exponent.toNat ++ ['.', '0']
  else
    let places := (-exponent).toNat
    if places < digits.length then
      digits.take (digits.length - places) ++ '.' :: digits.drop (digits.length - places)
    else ['0', '.'] ++ zeros (places - digits.length) ++ digits

/-- One digit before the point, none after it if there are no more, and a
signed exponent. -/
def withExponent (digits : List Char) (firstExponent : Int) : List Char :=
  let point := if digits.length ≤ 1 then [] else ['.']
  let sign := if firstExponent < 0 then '-' else '+'
  digits.take 1 ++ point ++ digits.drop 1 ++ ['e', sign] ++
    Nat.toDigits 10 firstExponent.natAbs

def render (layout : Layout) (numeral : Numeral) : List Char :=
  let digits := Nat.toDigits 10 numeral.digits
  let firstExponent := numeral.exponent + digits.length - 1
  if layout.leastPlain ≤ firstExponent && firstExponent ≤ layout.greatestPlain then
    plain digits numeral.exponent
  else withExponent digits firstExponent

/-- The text of a finite number; zero keeps its sign. -/
def text (layout : Layout) (number : Float) : String :=
  let sign := if isNegative number then ['-'] else []
  String.ofList (sign ++ layout.render (shortest number))

end Layout

end ConfigLowering.Decimal
