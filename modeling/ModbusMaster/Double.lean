/-!
Double-precision numbers as exact values, and their decimal text. A decimal number stands for the
double nearest to it, of two equally near ones for the one with an even significand.
-/

namespace ModbusMaster

/-- The quotient of two numbers rounded to the nearest integer, a half to the even neighbour. -/
def roundHalfEven (numerator denominator : Nat) : Nat :=
  let quotient := numerator / denominator
  let remainder := numerator % denominator
  if 2 * remainder < denominator then quotient
  else if denominator < 2 * remainder then quotient + 1
  else quotient + quotient % 2

inductive Double where
  | nan
  | infinite (negative : Bool)
  /-- The number `± significand * 2 ^ exponent`. -/
  | finite (negative : Bool) (significand : Nat) (exponent : Int)
  deriving DecidableEq

namespace Double

def one : Double := finite false 1 0

/-- The least exponent of a double. -/
def minExponent : Int := -1074

/-- The quotient `numerator / (denominator * 2 ^ exponent)` as a fraction. -/
def scaled (numerator denominator : Nat) (exponent : Int) : Nat × Nat :=
  (numerator * Nat.pow 2 (-exponent).toNat, denominator * Nat.pow 2 exponent.toNat)

/-- The exponent at which a fraction has a significand of 53 digits, or the least one. -/
def exponentOf (numerator denominator : Nat) : Int :=
  let guess : Int := (numerator.log2 : Int) - (denominator.log2 : Int) - 52
  let (n, d) := scaled numerator denominator guess
  max minExponent (if n < d * Nat.pow 2 52 then guess - 1 else guess)

/-- The double nearest to a fraction. -/
def ofFraction (negative : Bool) (numerator denominator : Nat) : Double :=
  let exponent := exponentOf numerator denominator
  let (n, d) := scaled numerator denominator exponent
  let significand := roundHalfEven n d
  if Nat.pow 2 1024 ≤ significand * Nat.pow 2 exponent.toNat then infinite negative
  else finite negative significand exponent

def ofInt (n : Int) : Double :=
  ofFraction (n < 0) n.natAbs 1

/-- The double nearest to `± coefficient * 10 ^ exponent`. Far beyond the range of doubles the
power of ten itself is not needed. -/
def ofDecimal (negative : Bool) (coefficient : Nat) (exponent : Int) : Double :=
  let magnitude := exponent + (coefficient.log2 / 3 : Nat)
  if coefficient = 0 then finite negative 0 0
  else if 400 < exponent then infinite negative
  else if magnitude < -400 then finite negative 0 0
  else
    ofFraction negative (coefficient * Nat.pow 10 exponent.toNat) (Nat.pow 10 (-exponent).toNat)

/-! ### Text -/

/-- Whether a character is an ASCII digit. -/
def isDigit (c : Char) : Bool :=
  '0' ≤ c && c ≤ '9'

/-- The number that a row of digits stands for. -/
def ofDigits (digits : List Char) : Nat :=
  digits.foldl (fun value c => 10 * value + (c.toNat - 48)) 0

/-- A sign in front of a text, and the rest. -/
def sign : List Char → Bool × List Char
  | '-' :: rest => (true, rest)
  | '+' :: rest => (false, rest)
  | text => (false, text)

/-- The exponent behind the digits of a number: none at all, or `e`, a sign and digits. -/
def exponent? : List Char → Option Int
  | [] => some 0
  | mark :: rest =>
      let (negative, digits) := sign rest
      if (mark = 'e' ∨ mark = 'E') ∧ digits ≠ [] ∧ digits.all isDigit then
        some (if negative then -(ofDigits digits : Int) else ofDigits digits)
      else none

/-- The part of a number between its point and its exponent, and the rest. -/
def fraction : List Char → List Char × List Char
  | '.' :: rest => (rest.takeWhile isDigit, rest.dropWhile isDigit)
  | text => ([], text)

/-- A number without sign: digits with a point anywhere among them, and an exponent. -/
def unsigned? (negative : Bool) (text : List Char) : Option Double :=
  let whole := text.takeWhile isDigit
  let (places, rest) := fraction (text.dropWhile isDigit)
  if whole = [] ∧ places = [] then none
  else
    (exponent? rest).map fun exponent =>
      ofDecimal negative (ofDigits (whole ++ places)) (exponent - places.length)

/-- The double that a text stands for: a decimal number, or one of the words `inf`, `infinity`
and `nan` in any case, each with an optional sign. -/
def parse? (text : List Char) : Option Double :=
  let (negative, rest) := sign text
  let lower := rest.map Char.toLower
  if lower = "nan".toList then some nan
  else if lower = "inf".toList ∨ lower = "infinity".toList then some (infinite negative)
  else unsigned? negative rest

end Double

end ModbusMaster
