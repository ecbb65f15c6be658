import ModbusMaster.Text.Blank
import ModbusMaster.Text.Hex
import ModbusMaster.Text.Numeral

/-!
Network addresses written as literals: four decimal bytes with points between them, or eight
hexadecimal groups with colons between them, where one run of zero groups may be left out.
-/

namespace ModbusMaster

inductive Host where
  | v4 (bytes : List Nat)
  /-- The zone tells apart links on which the same address may occur; mostly it is 0. -/
  | v6 (groups : List Nat) (zone : Nat)
  deriving DecidableEq

namespace Host

/-- A decimal byte without superfluous zeros. -/
def decimalByte? (text : List Char) : Option Nat :=
  match text, Numeral.append 255 0 text with
  | [], _ => none
  | ['0'], _ => some 0
  | '0' :: _, _ => none
  | _, .ok n => some n
  | _, .error _ => none

/-- The four bytes of a decimal literal. -/
def parseV4? (text : List Char) : Option (List Nat) :=
  let parts := Text.fields '.' text
  if parts.length = 4 then parts.mapM decimalByte? else none

/-- A group of one to four hexadecimal digits. -/
def group? (text : List Char) : Option Nat :=
  if text = [] ∨ 4 < text.length then none
  else (text.mapM Hex.value?).map fun digits => digits.foldl (fun n d => 16 * n + d) 0

/-- A row of groups with colons between them, where the last two may be a decimal literal. -/
def groups? (text : List Char) : Option (List Nat) :=
  if text = [] then some []
  else
    let parts := Text.fields ':' text
    match parts.getLast?.bind parseV4? with
    | some [a, b, c, d] =>
        (parts.dropLast.mapM group?).map fun groups => groups ++ [256 * a + b, 256 * c + d]
    | _ => parts.mapM group?

/-- The two sides of the first double colon. -/
def splitGap? : List Char → Option (List Char × List Char)
  | ':' :: ':' :: rest => some ([], rest)
  | c :: rest => (splitGap? rest).map fun sides => (c :: sides.1, sides.2)
  | [] => none

/-- The eight groups of a hexadecimal literal. A decimal literal stands only at the very end. -/
def parseV6? (text : List Char) : Option (List Nat) :=
  match splitGap? text with
  | some (left, right) => do
      let before ← if left.contains '.' then none else groups? left
      let after ← groups? right
      let given := before.length + after.length
      if given < 8 then some (before ++ List.replicate (8 - given) 0 ++ after) else none
  | none => do
      let groups ← groups? text
      if groups.length = 8 then some groups else none

/-- The address that a literal stands for. -/
def parse? (text : List Char) : Option Host :=
  match parseV4? text with
  | some bytes => some (v4 bytes)
  | none => (parseV6? text).map (v6 · 0)

/-- Lower-case hexadecimal digits without superfluous zeros. -/
def hexGroup (group : Nat) : String :=
  String.ofList (Nat.toDigits 16 group)

def joinGroups (groups : List Nat) : String :=
  String.intercalate ":" (groups.map hexGroup)

def joinBytes (bytes : List Nat) : String :=
  String.intercalate "." (bytes.map toString)

/-- The length of the run of zero groups at the start. -/
def zeroRun (groups : List Nat) : Nat :=
  (groups.takeWhile (· == 0)).length

/-- The position and length of the first longest run of zero groups. -/
def longestGap (groups : List Nat) : Nat × Nat :=
  (List.range groups.length).foldl (fun best i =>
    let run := zeroRun (groups.drop i)
    if best.2 < run then (i, run) else best) (0, 0)

/-- The shortest literal of an address without its zone; one run of at least two zero groups is left
out. -/
def describe : Host → String
  | v4 bytes => joinBytes bytes
  | v6 [0, 0, 0, 0, 0, 0xFFFF, g, h] _ =>
      "::ffff:" ++ joinBytes [g / 256, g % 256, h / 256, h % 256]
  | v6 groups _ =>
      let (start, run) := longestGap groups
      if 1 < run then
        joinGroups (groups.take start) ++ "::" ++ joinGroups (groups.drop (start + run))
      else joinGroups groups

/-- An address with a port. -/
def withPort (host : Host) (port : UInt16) : String :=
  match host with
  | v4 _ => host.describe ++ s!":{port.toNat}"
  | v6 _ zone =>
      let zoneText := if zone = 0 then "" else s!"%{zone}"
      "[" ++ host.describe ++ zoneText ++ s!"]:{port.toNat}"

end Host

end ModbusMaster
