import ModbusMaster.Host

/-!
The address that a name stands for without asking anybody. Besides proper literals these are the
name of this machine, numbers with fewer than three points, and hexadecimal literals with a zone.
In a row of numbers the last one fills all the bytes that are left, so that `127.1` is `127.0.0.1`;
each number is decimal, hexadecimal behind `0x`, or octal behind another zero.
-/

namespace ModbusMaster.Host

/-- The value of one or more digits in a base up to sixteen. -/
def digits? (base : Nat) (text : List Char) : Option Nat := do
  let digits ← text.mapM Hex.value?
  if digits = [] ∨ digits.any (base ≤ ·) then none
  else some (digits.foldl (fun value digit => base * value + digit) 0)

/-- The value of a number whose start tells its base. -/
def number? : List Char → Option Nat
  | '0' :: 'x' :: digits | '0' :: 'X' :: digits => digits? 16 digits
  | '0' :: digits => digits? 8 ('0' :: digits)
  | digits => digits? 10 digits

/-- The last `count` bytes of a number, the highest first. -/
def lowBytes (count value : Nat) : List Nat :=
  (List.range count).reverse.map fun place => value / Nat.pow 256 place % 256

/-- The four bytes of a row of up to four numbers. All but the last one are bytes, and the last one
fits what is left. -/
def numbersV4? (text : List Char) : Option (List Nat) := do
  let numbers ← (Text.fields '.' text).mapM number?
  let bytes := numbers.dropLast
  let last ← numbers.getLast?
  let left := 4 - bytes.length
  if bytes.length < 4 ∧ bytes.all (· < 256) ∧ last < Nat.pow 256 left then
    some (bytes ++ lowBytes left last)
  else none

/-- Whether an address is meant for one link or one machine only. -/
def isLinkLocal : List Nat → Bool
  | first :: _ => first / 64 = 0xFE80 / 64 || first / 256 = 0xFF && [1, 2].contains (first % 16)
  | [] => false

/-- The zone that a text names: a number, or for an address on a link the loopback link. -/
def zone? (groups : List Nat) (text : List Char) : Option Nat :=
  if text = ['l', 'o'] then if isLinkLocal groups then some 1 else none
  else (digits? 10 text).filter (· < Nat.pow 2 32)

/-- A hexadecimal literal with a zone behind a percent sign. -/
def zonedV6? (text : List Char) : Option Host := do
  let groups ← parseV6? (text.takeWhile (· ≠ '%'))
  match text.dropWhile (· ≠ '%') with
  | '%' :: zone => (zone? groups zone).map (v6 groups)
  | _ => none

/-- The address that a name stands for. -/
def resolve? (name : String) : Option Host :=
  if name = "localhost" then some (v4 [127, 0, 0, 1])
  else
    let text := name.toList
    (parse? text).or (((numbersV4? text).map v4).or (zonedV6? text))

end ModbusMaster.Host
