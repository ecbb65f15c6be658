import ModbusMaster.Double
import ModbusMaster.Text.Numeral

/-!
The grammar of a command line. Switches have a long name and perhaps a letter; some of them carry
a value, which stands behind an equals sign, directly behind the letter, or in the next argument
unless that looks like a switch itself. Every switch may be given once. The first argument that is
no switch names a command, and what follows it is the command's own line.
-/

namespace ModbusMaster.CommandLine

/-- What a value has to be. -/
inductive ValueKind where
  | text
  /-- One of some words. -/
  | word (choices : List String)
  /-- A whole number up to a limit. -/
  | number (limit : Nat)
  /-- A whole number up to a limit, where zero may have a minus sign. -/
  | signed (limit : Nat)
  /-- A number as `Double.parse?` reads it. -/
  | double

/-- The whole number of a text, where zero may have a minus sign. -/
def signed? (limit : Nat) : List Char → Option Nat
  | '-' :: digits =>
      match digits, Numeral.append 0 0 digits with
      | _ :: _, .ok n => some n
      | _, _ => none
  | text => (Numeral.parse limit text).toOption

def ValueKind.accepts (text : List Char) : ValueKind → Bool
  | .text => true
  | .word choices => choices.any fun choice => choice.toList == text
  | .number limit => (Numeral.parse limit text).isOk
  | .signed limit => (signed? limit text).isSome
  | .double => (Double.parse? text).isSome

inductive SwitchKind where
  /-- It is given or not. -/
  | flag
  /-- It asks for a description of the program. -/
  | help
  | value (kind : ValueKind)

structure Switch where
  name : String
  letter : Option Char := none
  kind : SwitchKind

/-- Why a command line leads to no work. -/
inductive Stop where
  /-- The line is not in the grammar. -/
  | usage
  /-- A description of the program was asked for. -/
  | help
  deriving DecidableEq

/-- The exit code of a program that does no work. -/
def Stop.exitCode : Stop → Nat
  | usage => 2
  | help => 0

/-- The switches that were given, with their values; a flag has no value. -/
abbrev Given := List (String × List Char)

namespace Given

/-- The largest number that any switch takes. -/
def largest : Nat := 18446744073709551615

def has (given : Given) (name : String) : Bool :=
  given.any fun entry => entry.1 == name

def text? (given : Given) (name : String) : Option String :=
  (given.lookup name).map String.ofList

def number? (given : Given) (name : String) : Option Nat :=
  (given.lookup name).bind fun text => (Numeral.parse largest text).toOption

def signed? (given : Given) (name : String) : Option Nat :=
  (given.lookup name).bind fun text => CommandLine.signed? largest text

def word? (given : Given) (name : String) : Option UInt16 :=
  (given.signed? name).map UInt16.ofNat

def double? (given : Given) (name : String) : Option Double :=
  (given.lookup name).bind Double.parse?

/-- Adds a switch with its value, once and if the value is of its kind. -/
def add (given : Given) (switch : Switch) (value : List Char) : Except Stop Given :=
  let accepted := match switch.kind with
    | .value kind => kind.accepts value
    | _ => true
  if given.has switch.name || !accepted then .error .usage
  else .ok (given ++ [(switch.name, value)])

end Given

/-- How an argument looks. -/
inductive Shape where
  | plain
  /-- Two dashes: no switches follow. -/
  | escape
  | long (name : String) (value : Option (List Char))
  | cluster (letters : List Char)

/-- The two sides of the first equals sign. -/
def splitEquals : List Char → List Char × Option (List Char)
  | [] => ([], none)
  | '=' :: rest => ([], some rest)
  | c :: rest =>
      let (before, after) := splitEquals rest
      (c :: before, after)

def Shape.of (argument : String) : Shape :=
  match argument.toList with
  | ['-', '-'] => escape
  | '-' :: '-' :: rest =>
      let (name, value) := splitEquals rest
      long (String.ofList name) value
  | '-' :: c :: rest => cluster (c :: rest)
  | _ => plain

structure Grammar where
  switches : List Switch
  /-- The commands that the line may end with. -/
  commands : List String := []

namespace Grammar

/-- Reads a switch by its long name; also the switch whose value is in the next argument. -/
def takeLong (grammar : Grammar) (given : Given) (name : String) (value : Option (List Char)) :
    Except Stop (Given × Option Switch) :=
  match grammar.switches.find? (·.name == name) with
  | none => .error .usage
  | some switch =>
      match switch.kind, value with
      | .help, none => .error .help
      | .flag, none => (given.add switch []).map (·, none)
      | .value _, none => .ok (given, some switch)
      | .value _, some value => (given.add switch value).map (·, none)
      | _, some _ => .error .usage

/-- Reads a row of letters; also the switch whose value is in the next argument. -/
def takeCluster (grammar : Grammar) (given : Given) :
    List Char → Except Stop (Given × Option Switch)
  | [] => .ok (given, none)
  | c :: rest =>
      match grammar.switches.find? (·.letter == some c) with
      | none => .error .usage
      | some switch =>
          match switch.kind, rest with
          | .help, _ => .error .help
          | .flag, _ => do
              let given ← given.add switch []
              takeCluster grammar given rest
          | .value _, [] => .ok (given, some switch)
          | .value _, '=' :: value => (given.add switch value).map (·, none)
          | .value _, value => (given.add switch value).map (·, none)

/-- Whether an argument can be the value of the switch before it. -/
def isValue (argument : String) : Bool :=
  match Shape.of argument with
  | .plain => true
  | _ => false

/-- Reads a command line: the switches, and the command with its own line if there is one. -/
def parse (grammar : Grammar) (given : Given) :
    List String → Except Stop (Given × Option (String × List String))
  | [] => .ok (given, none)
  | argument :: rest => do
      let (given, pending) ← match Shape.of argument with
        | .plain =>
            if grammar.commands.contains argument then return (given, some (argument, rest))
            else .error .usage
        | .escape => if rest = [] then return (given, none) else .error .usage
        | .long name value => grammar.takeLong given name value
        | .cluster letters => grammar.takeCluster given letters
      match pending, rest with
      | none, rest => parse grammar given rest
      | some _, [] => .error .usage
      | some switch, value :: rest =>
          if isValue value then
            let given ← given.add switch value.toList
            parse grammar given rest
          else .error .usage

end Grammar

end ModbusMaster.CommandLine
