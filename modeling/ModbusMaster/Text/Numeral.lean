/-!
Unsigned decimal numerals: an optional plus sign, then one or more ASCII digits, with a value up
to a limit. Any number of leading zeros is allowed.
-/

namespace ModbusMaster.Numeral

/-- Why a text is not a numeral below the limit. -/
inductive Fault where
  | empty
  | invalidDigit
  | tooLarge
  deriving DecidableEq, Repr

def Fault.message : Fault → String
  | .empty => "cannot parse integer from empty string"
  | .invalidDigit => "invalid digit found in string"
  | .tooLarge => "number too large to fit in target type"

/-- The value of an ASCII digit. -/
def digit? (c : Char) : Option Nat :=
  if '0' ≤ c ∧ c ≤ '9' then some (c.toNat - 48) else none

/-- Appends digits to a value, stopping at the first character that is no digit or that takes the
value over the limit. -/
def append (limit : Nat) : Nat → List Char → Except Fault Nat
  | value, [] => .ok value
  | value, c :: rest =>
      match digit? c with
      | none => .error .invalidDigit
      | some d =>
          if limit < 10 * value + d then .error .tooLarge
          else append limit (10 * value + d) rest

/-- The value of a numeral that is at most `limit`. -/
def parse (limit : Nat) : List Char → Except Fault Nat
  | [] => .error .empty
  | ['+'] => .error .invalidDigit
  | '+' :: rest => append limit 0 rest
  | text => append limit 0 text

/-- A numeral that fits an address, a count or a register. -/
def parseWord (text : List Char) : Except Fault UInt16 :=
  (parse 65535 text).map UInt16.ofNat

end ModbusMaster.Numeral
