import ModbusMaster.Client.Job
import ModbusMaster.CommandLine.Grammar
import ModbusMaster.Config

/-!
The command line of the client: switches that describe the equipment and how it is reached, then
a command with the switches of its own.
-/

namespace ModbusMaster.CommandLine

/-- What the client was called with. -/
structure Invocation where
  config : EngineConfig
  decode : DecodeLevel
  /-- The time between two rounds; without it the job is done once. -/
  period : Option Duration
  job : Client.Job

/-- A switch that takes a word of 16 bits. -/
def wordSwitch (name : String) (letter : Option Char := none) : Switch :=
  ⟨name, letter, .value (.signed 65535)⟩

/-- A switch that takes any text. -/
def textSwitch (name : String) (letter : Option Char := none) : Switch :=
  ⟨name, letter, .value .text⟩

def helpSwitch : Switch :=
  ⟨"help", some 'h', .help⟩

/-- A command: its switches, and the job that their values make if none is missing. -/
structure Command where
  name : String
  switches : List Switch
  job? : Given → Option Client.Job

namespace Command

/-- A command that reads a range. -/
def ofRange (name : String) (operation : UInt16 → UInt16 → Operation) : Command where
  name := name
  switches := [wordSwitch "start" (some 's'), wordSwitch "quantity" (some 'q')]
  job? given := do
    return .perform (operation (← given.word? "start") (← given.word? "quantity"))

/-- A command that writes one register. -/
def ofRegister (name : String) (operation : UInt16 → UInt16 → Operation) : Command where
  name := name
  switches := [wordSwitch "address" (some 'a'), wordSwitch "value" (some 'v')]
  job? given := do
    return .perform (operation (← given.word? "address") (← given.word? "value"))

/-- A command that writes a row of values. -/
def ofRow (name : String) (job : UInt16 → String → Client.Job) : Command where
  name := name
  switches := [wordSwitch "start" (some 's'), textSwitch "values" (some 'v')]
  job? given := do
    return job (← given.word? "start") (← given.text? "values")

/-- A command without switches. -/
def plain (name : String) (operation : Operation) : Command where
  name := name
  switches := []
  job? _ := some (.perform operation)

def readCoil : Command where
  name := "rc"
  switches := [wordSwitch "address" (some 'a')]
  job? given := do
    return .perform (.readCoil (← given.word? "address"))

/-- Sets a coil; the flag says to which state. -/
def writeCoil : Command where
  name := "fsc"
  switches := [wordSwitch "address" (some 'a'), ⟨"value", some 'v', .flag⟩]
  job? given := do
    return .perform (.writeCoil (← given.word? "address") (given.has "value"))

def maskWrite : Command where
  name := "mwr"
  switches := [wordSwitch "address" (some 'a'), wordSwitch "and-mask", wordSwitch "or-mask"]
  job? given := do
    return .perform (.maskWriteRegister (← given.word? "address") (← given.word? "and-mask")
      (← given.word? "or-mask"))

def readWrite : Command where
  name := "rwr"
  switches := [wordSwitch "read-start", wordSwitch "read-quantity", wordSwitch "write-start",
    textSwitch "values" (some 'v')]
  job? given := do
    return .readWriteRegisters (← given.word? "read-start") (← given.word? "read-quantity")
      (← given.word? "write-start") (← given.text? "values")

def all : List Command :=
  [readCoil,
   ofRange "rmc" .readCoils,
   ofRange "ris" .readDiscreteInputs,
   ofRange "rhr" .readHoldingRegisters,
   ofRange "rir" .readInputRegisters,
   writeCoil,
   ofRegister "psr" .writeRegister,
   ofRegister "psrb" .broadcastRegister,
   ofRow "fmc" .writeCoils,
   ofRow "pmr" .writeRegisters,
   maskWrite,
   readWrite,
   plain "res" .readExceptionStatus,
   plain "cec" .fetchEventCounter]

/-- The job of a command's own line. -/
def parse (command : Command) (arguments : List String) : Except Stop Client.Job := do
  let (given, _) ← Grammar.parse { switches := helpSwitch :: command.switches } [] arguments
  match command.job? given with
  | some job => return job
  | none => .error .usage

end Command

namespace Invocation

/-- The command that describes the others. -/
def helpCommand : String := "help"

def switches : List Switch :=
  [⟨"protocol", none, .value (.word ["rtu", "tcp"])⟩,
   textSwitch "host",
   wordSwitch "port",
   textSwitch "device",
   ⟨"baud", none, .value (.signed 4294967295)⟩,
   ⟨"id", some 'i', .value (.signed 255)⟩,
   ⟨"timeout", some 't', .value .double⟩,
   textSwitch "log-file",
   ⟨"legacy-crc", none, .flag⟩,
   wordSwitch "retries" (some 'r'),
   ⟨"period", some 'p', .value (.number Given.largest)⟩,
   ⟨"verbose", some 'v', .flag⟩,
   helpSwitch,
   ⟨"version", some 'V', .help⟩]

def grammar : Grammar where
  switches := switches
  commands := helpCommand :: Command.all.map (·.name)

/-- The configuration that the switches describe. All time limits are the same. -/
def configOf (given : Given) : EngineConfig :=
  let timeout := (given.double? "timeout").getD .one
  { protocol := if given.text? "protocol" = some "rtu" then .rtu else .tcp
    node := ((given.signed? "id").map UInt8.ofNat).getD UnitId.default.value
    serialDevice := (given.text? "device").getD ""
    baudRate := ((given.signed? "baud").map UInt32.ofNat).getD 9600
    serialTimeout := timeout
    logFile := (given.text? "log-file").getD ""
    crcCheck := if given.has "legacy-crc" then .legacy else .strict
    tcpHost := (given.text? "host").getD "127.0.0.1"
    tcpPort := (given.word? "port").getD Tcp.defaultPort
    tcpConnectTimeout := timeout
    tcpTimeout := timeout
    retryCount := (given.word? "retries").getD 0
    retrySleep := 100 }

/-- What is traced when the client is to be verbose. -/
def verboseLevel : DecodeLevel := ⟨.payload, .length⟩

/-- A switch in words. -/
def describe (switch : Switch) : String :=
  let letter := match switch.letter with
    | some c => "-" ++ String.singleton c ++ ", "
    | none => ""
  let value := match switch.kind with
    | .value _ => " <" ++ switch.name ++ ">"
    | _ => ""
  letter ++ "--" ++ switch.name ++ value

/-- The switches and the commands in words. -/
def summary : List String :=
  ["usage: [switches] <command> [switches of the command]", "switches:"] ++
    switches.map (fun switch => "  " ++ describe switch) ++ ["commands:"] ++
    Command.all.map fun command =>
      String.intercalate " " (("  " ++ command.name) :: command.switches.map describe)

/-- Whether the help command may stand in front of such a line. -/
def describes : List String → Bool
  | [] => true
  | [command] => grammar.commands.contains command
  | _ => false

/-- Reads the command line of the client. -/
def parse (arguments : List String) : Except Stop Invocation := do
  let (given, command) ← grammar.parse [] arguments
  match command with
  | none => .error .usage
  | some (name, rest) =>
      match Command.all.find? (·.name == name) with
      | none => .error (if describes rest then .help else .usage)
      | some command =>
          let job ← command.parse rest
          return {
            config := configOf given
            decode := if given.has "verbose" then verboseLevel else .nothing
            period := (given.number? "period").map Duration.ofMillis
            job }

end Invocation

end ModbusMaster.CommandLine
