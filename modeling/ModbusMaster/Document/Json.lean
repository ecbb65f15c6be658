import ModbusMaster.Document
import ModbusMaster.Text.Hex

/-!
Documents as JSON text. Integers and decimal numbers are told apart by the way they are written;
an integer beyond 64 bits counts as a decimal number.
-/

namespace ModbusMaster.Document

/-! ### Reading -/

namespace Json

def isSpace (c : Char) : Bool :=
  c = ' ' || c = '\n' || c = '\r' || c = '\t'

def skipSpace (input : List Char) : List Char :=
  input.dropWhile isSpace

/-- The 16-bit unit that four hexadecimal digits stand for. -/
def unit? (a b c d : Char) : Option Nat := do
  let digits ← [a, b, c, d].mapM Hex.value?
  return digits.foldl (fun unit digit => 16 * unit + digit) 0

/-- The character of a high and a low surrogate. -/
def paired (high low : Nat) : Char :=
  Char.ofNat (0x10000 + 0x400 * (high - 0xD800) + (low - 0xDC00))

/-- The character that a letter behind a backslash stands for. -/
def escaped? : Char → Option Char
  | '"' => some '"'
  | '\\' => some '\\'
  | '/' => some '/'
  | 'b' => some '\x08'
  | 'f' => some '\x0c'
  | 'n' => some '\n'
  | 'r' => some '\r'
  | 't' => some '\t'
  | _ => none

/-- The characters of a string after its opening quote, and the rest behind the closing one. -/
def string? (read : List Char) : Nat → List Char → Option (String × List Char)
  | 0, _ => none
  | _ + 1, [] => none
  | _ + 1, '"' :: rest => some (String.ofList read.reverse, rest)
  | fuel + 1, '\\' :: 'u' :: a :: b :: c :: d :: rest => do
      let high ← unit? a b c d
      if 0xD800 ≤ high ∧ high < 0xDC00 then
        match rest with
        | '\\' :: 'u' :: e :: f :: g :: h :: rest =>
            let low ← unit? e f g h
            if 0xDC00 ≤ low ∧ low < 0xE000 then string? (paired high low :: read) fuel rest
            else none
        | _ => none
      else string? (Char.ofNat high :: read) fuel rest
  | fuel + 1, '\\' :: c :: rest => do
      let c ← escaped? c
      string? (c :: read) fuel rest
  | fuel + 1, c :: rest => string? (c :: read) fuel rest

/-- The characters that a number is written with. -/
def isNumberChar (c : Char) : Bool :=
  Double.isDigit c || c = '-' || c = '+' || c = '.' || c = 'e' || c = 'E'

/-- The number that a text stands for. -/
def number? (input : List Char) : Option Document :=
  let (negative, digits) := Double.sign input
  if digits ≠ [] ∧ digits.all Double.isDigit ∧ input ≠ ['-', '0'] then
    let n := Double.ofDigits digits
    if negative ∧ n ≤ Nat.pow 2 63 then some (.integer (-(n : Int)))
    else if ¬ negative ∧ n < Nat.pow 2 64 then some (.integer n)
    else some (.decimal (.ofInt (if negative then -(n : Int) else n)))
  else (Double.parse? input).map .decimal

mutual

/-- A value at the start of a text, and the rest. -/
def value? : Nat → List Char → Option (Document × List Char)
  | 0, _ => none
  | fuel + 1, input =>
      match skipSpace input with
      | 'n' :: 'u' :: 'l' :: 'l' :: rest => some (.null, rest)
      | 't' :: 'r' :: 'u' :: 'e' :: rest => some (.bool true, rest)
      | 'f' :: 'a' :: 'l' :: 's' :: 'e' :: rest => some (.bool false, rest)
      | '"' :: rest => (string? [] fuel rest).map fun (s, rest) => (.text s, rest)
      | '[' :: rest =>
          match skipSpace rest with
          | ']' :: rest => some (.list [], rest)
          | rest => (items? fuel rest).map fun (items, rest) => (.list items, rest)
      | '\x7b' :: rest =>
          match skipSpace rest with
          | '\x7d' :: rest => some (.record [], rest)
          | rest => (members? fuel rest).map fun (fields, rest) => (.record fields, rest)
      | rest =>
          (number? (rest.takeWhile isNumberChar)).map fun n => (n, rest.dropWhile isNumberChar)

/-- The items of a list up to its closing bracket. -/
def items? : Nat → List Char → Option (List Document × List Char)
  | 0, _ => none
  | fuel + 1, input => do
      let (item, rest) ← value? fuel input
      match skipSpace rest with
      | ',' :: rest =>
          let (items, rest) ← items? fuel rest
          some (item :: items, rest)
      | ']' :: rest => some ([item], rest)
      | _ => none

/-- The fields of a record up to its closing brace. -/
def members? : Nat → List Char → Option (List (String × Document) × List Char)
  | 0, _ => none
  | fuel + 1, input => do
      match skipSpace input with
      | '"' :: rest =>
          let (name, rest) ← string? [] fuel rest
          match skipSpace rest with
          | ':' :: rest =>
              let (value, rest) ← value? fuel rest
              match skipSpace rest with
              | ',' :: rest =>
                  let (fields, rest) ← members? fuel rest
                  some ((name, value) :: fields, rest)
              | '\x7d' :: rest => some ([(name, value)], rest)
              | _ => none
          | _ => none
      | _ => none

end

end Json

/-- The document that a JSON text stands for. -/
def parse? (input : String) : Option Document := do
  let chars := input.toList
  let (document, rest) ← Json.value? (chars.length + 1) chars
  if (Json.skipSpace rest).isEmpty then some document else none

/-! ### Writing -/

namespace Json

/-- A character of a string; quotes, backslashes and control characters are escaped. -/
def char (c : Char) : String :=
  if c = '"' then "\\\""
  else if c = '\\' then "\\\\"
  else if c.toNat < 32 then "\\u" ++ Hex.word (UInt16.ofNat c.toNat)
  else String.singleton c

def string (s : String) : String :=
  "\"" ++ String.join (s.toList.map char) ++ "\""

/-- All digits of a number; a number that is not finite is written as a word. -/
def decimal : Double → String
  | .nan => "\"NaN\""
  | .infinite negative => if negative then "\"-inf\"" else "\"inf\""
  | .finite negative significand exponent =>
      let places := (-exponent).toNat
      let digits := Nat.toDigits 10 (significand * Nat.pow 2 exponent.toNat * Nat.pow 5 places)
      let padded := List.replicate (places + 1 - digits.length) '0' ++ digits
      let whole := String.ofList (padded.take (padded.length - places))
      let rest := String.ofList (padded.drop (padded.length - places))
      (if negative then "-" else "") ++ whole ++ "." ++ (if rest = "" then "0" else rest)

end Json

mutual

/-- A document as JSON text without blanks. -/
def render : Document → String
  | .null => "null"
  | .bool b => if b then "true" else "false"
  | .integer n => toString n
  | .decimal x => Json.decimal x
  | .text s => Json.string s
  | .list items => "[" ++ String.intercalate "," (renderItems items) ++ "]"
  | .record fields => "\x7b" ++ String.intercalate "," (renderFields fields) ++ "\x7d"

def renderItems : List Document → List String
  | [] => []
  | item :: rest => item.render :: renderItems rest

def renderFields : List (String × Document) → List String
  | [] => []
  | (name, value) :: rest => (Json.string name ++ ":" ++ value.render) :: renderFields rest

end

end ModbusMaster.Document
