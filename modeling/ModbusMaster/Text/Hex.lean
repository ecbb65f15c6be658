import ModbusMaster.Bytes

/-!
Hexadecimal text: upper-case digits of fixed or least width, bare or behind `0x`.
-/

namespace ModbusMaster.Hex

/-- The digit of a value below sixteen. -/
def digit (value : Nat) : Char :=
  if value < 10 then Char.ofNat (48 + value) else Char.ofNat (55 + value)

/-- The value of a digit in either case. -/
def value? (c : Char) : Option Nat :=
  if '0' ≤ c ∧ c ≤ '9' then some (c.toNat - 48)
  else if 'a' ≤ c ∧ c ≤ 'f' then some (c.toNat - 87)
  else if 'A' ≤ c ∧ c ≤ 'F' then some (c.toNat - 55)
  else none

/-- The two digits of a byte. -/
def byteDigits (b : UInt8) : List Char :=
  [digit (b.toNat / 16), digit (b.toNat % 16)]

/-- A byte as two digits. -/
def byte (b : UInt8) : String :=
  String.ofList (byteDigits b)

/-- A word as four digits. -/
def word (w : UInt16) : String :=
  String.ofList ((bigEndian w).flatMap byteDigits)

/-- A number as `width` digits, or as many as it takes. -/
def padded (width n : Nat) : String :=
  String.ofList (((Nat.toDigits 16 n).map Char.toUpper).leftpad width '0')

/-- A byte as two digits behind `0x`. -/
def byteLiteral (b : UInt8) : String :=
  "0x" ++ byte b

/-- A word as four digits behind `0x`. -/
def wordLiteral (w : UInt16) : String :=
  "0x" ++ word w

/-- The bytes one after the other, with single blanks between them. -/
def spaced (bytes : Bytes) : String :=
  String.intercalate " " (bytes.map byte)

/-- The bytes one after the other in lower-case digits. -/
def compact (bytes : Bytes) : String :=
  String.ofList ((bytes.flatMap byteDigits).map Char.toLower)

/-- The bytes that pairs of digits stand for. -/
def bytes? : List Char → Option Bytes
  | [] => some []
  | high :: low :: rest => do
      let h ← value? high
      let l ← value? low
      return UInt8.ofNat (16 * h + l) :: (← bytes? rest)
  | _ => none

end ModbusMaster.Hex
