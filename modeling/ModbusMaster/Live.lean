import ModbusMaster.Action
import ModbusMaster.Serial.Incoming
import Std.Async.TCP
import Std.Async.Timer

/-!
Actions against the real world: connections over the network, serial ports that are open like
files, the clock of the machine and its terminal. One action runs at a time, so buses and
transports are always free, and no polling task runs beside it.
-/

namespace ModbusMaster.Live

open Std.Async (Async)
open Std.Async.TCP.Socket (Client)

/-- A serial port: the file to write to, and what came in. -/
structure Port where
  file : IO.FS.Handle
  incoming : IO.Ref Serial.Incoming
  /-- Whether the port is still listened to. -/
  isOpen : IO.Ref Bool
  /-- How long a read waits for the bytes it asks for. -/
  timeout : Duration

/-- What is kept outside the actions. -/
structure Holdings where
  streams : Array (Option Client) := #[]
  ports : Array Port := #[]
  transports : Array Transport := #[]

abbrev State := IO.Ref Holdings

/-- Milliseconds, rounded up. -/
def millisOf (duration : Duration) : Nat :=
  (duration + 999999) / 1000000

/-- The kinds of failure by the numbers that the operating system gives them. -/
def kinds : List (UInt32 × IoError) :=
  [(1, .permissionDenied), (2, .notFound), (4, .interrupted), (11, .wouldBlock),
   (12, .outOfMemory), (13, .permissionDenied), (16, .resourceBusy), (17, .alreadyExists),
   (22, .invalidInput), (28, .storageFull), (32, .brokenPipe), (98, .addrInUse),
   (99, .addrNotAvailable), (100, .networkDown), (101, .networkUnreachable),
   (103, .connectionAborted), (104, .connectionReset), (107, .notConnected), (110, .timedOut),
   (111, .connectionRefused), (113, .hostUnreachable)]

/-- The number of a failure. -/
def numberOf : IO.Error → Option UInt32
  | .alreadyExists _ number _ | .otherError number _ | .resourceBusy number _
  | .resourceVanished number _ | .unsupportedOperation number _ | .hardwareFault number _
  | .unsatisfiedConstraints number _ | .illegalOperation number _ | .protocolError number _
  | .timeExpired number _ | .interrupted _ number _ | .noFileOrDirectory _ number _
  | .invalidArgument _ number _ | .permissionDenied _ number _ | .resourceExhausted _ number _
  | .inappropriateType _ number _ | .noSuchThing _ number _ => some number
  | _ => none

/-- A failure as the operating system words it. -/
def reasonOf : IO.Error → String
  | .alreadyExists _ _ text | .otherError _ text | .resourceBusy _ text
  | .resourceVanished _ text | .unsupportedOperation _ text | .hardwareFault _ text
  | .unsatisfiedConstraints _ text | .illegalOperation _ text | .protocolError _ text
  | .timeExpired _ text | .interrupted _ _ text | .noFileOrDirectory _ _ text
  | .invalidArgument _ _ text | .permissionDenied _ _ text | .resourceExhausted _ _ text
  | .inappropriateType _ _ text | .noSuchThing _ _ text => text
  | .unexpectedEof => IoError.unexpectedEof.message
  | .userError text => text

/-- The kind of a failure. Failures of the network have the negated numbers. -/
def kindOf (error : IO.Error) : IoError :=
  match numberOf error with
  | none => .other
  | some number =>
      ((kinds.lookup number).or (kinds.lookup (0 - number))).getD .other

def byteArray (bytes : Bytes) : ByteArray :=
  ⟨bytes.toArray⟩

/-- Does something that can fail, within a limit if there is one. -/
def within {α : Type} (limit : Duration) (work : Async α) : IO (Except Interruption α) := do
  let late : Async (Option α) := do
    Std.Async.sleep (.ofNat (millisOf limit))
    return none
  try
    match ← (Async.race (some <$> work) late).block with
    | some result => return .ok result
    | none => return .error .elapsed
  catch error => return .error (.failed (kindOf error))

/-- Waits until the clock of the machine has reached an instant. -/
partial def sleepUntil (instant : Instant) : IO Unit := do
  let now ← IO.monoNanosNow
  if now < instant then
    IO.sleep (UInt32.ofNat (min (millisOf (instant - now)) 60000))
    sleepUntil instant

/-! ### Network -/

def socketAddress (host : Host) (port : UInt16) : Std.Net.SocketAddress :=
  match host with
  | .v4 bytes =>
      let byte (i : Nat) : UInt8 := UInt8.ofNat (bytes.getD i 0)
      .v4 ⟨.ofParts (byte 0) (byte 1) (byte 2) (byte 3), port⟩
  | .v6 groups _ =>
      let group (i : Nat) : UInt16 := UInt16.ofNat (groups.getD i 0)
      .v6 ⟨.ofParts (group 0) (group 1) (group 2) (group 3) (group 4) (group 5) (group 6)
        (group 7), port⟩

def connect (state : State) (settings : Tcp.Settings) (host : Host) :
    IO (Except Interruption Handle) := do
  let client ← Client.mk
  match ← within settings.connectTimeout (client.connect (socketAddress host settings.port)) with
  | .error interruption => return .error interruption
  | .ok () =>
      if settings.noDelay then client.noDelay
      if settings.keepAlive then client.keepAlive true 60
      let holdings ← state.get
      state.set { holdings with streams := holdings.streams.push (some client) }
      return .ok holdings.streams.size

def stream? (state : State) (stream : Handle) : IO (Option Client) := do
  return ((← state.get).streams[stream]?).join

def transmit (state : State) (stream : Handle) (bytes : Bytes) (limit : Duration) :
    IO (Except Interruption Unit) := do
  match ← stream? state stream with
  | none => return .error (.failed .notConnected)
  | some client => within limit (client.send (byteArray bytes))

def receive (state : State) (stream : Handle) (count : Nat) (limit : Duration) :
    IO (Except Interruption Bytes) := do
  match ← stream? state stream with
  | none => return .error (.failed .notConnected)
  | some client =>
      let received ← within limit (client.recv? (UInt64.ofNat count))
      return received.map fun data => (data.map (·.toList)).getD []

def close (state : State) (stream : Handle) : IO Unit := do
  match ← stream? state stream with
  | none => return ()
  | some client =>
      state.modify fun holdings =>
        { holdings with streams := holdings.streams.setIfInBounds stream none }
      discard (within (.ofSeconds 1) client.shutdown)

/-! ### Serial ports -/

/-- Gathers what comes in at a port while it is open. -/
partial def listen (file : IO.FS.Handle) (incoming : IO.Ref Serial.Incoming)
    (isOpen : IO.Ref Bool) : IO Unit := do
  if ← isOpen.get then
    let data ← file.read 1
    if data.isEmpty then IO.sleep 1
    else incoming.modify (·.arrive data.toList)
    listen file incoming isOpen

/-- Opens a port. It keeps the settings that it has; they should let a read of the file end when
nothing comes in for a while, or else the program ends only with the next byte. -/
def openPort (state : State) (path : String) (settings : Serial.Settings) :
    IO (Except String Handle) := do
  try
    let file ← IO.FS.Handle.mk path .readWrite
    let incoming ← IO.mkRef ({} : Serial.Incoming)
    let isOpen ← IO.mkRef true
    let source ← IO.FS.Handle.mk path .read
    discard (IO.asTask (listen source incoming isOpen) .dedicated)
    let holdings ← state.get
    let port : Port := { file, incoming, isOpen, timeout := settings.timeout }
    state.set { holdings with ports := holdings.ports.push port }
    return .ok holdings.ports.size
  catch error => return .error (reasonOf error)

/-- Ends the listening to all ports. -/
def closePorts (state : State) : IO Unit := do
  for port in (← state.get).ports do
    port.isOpen.set false

def withPort {α : Type} (state : State) (line : Handle) (work : Port → IO α) :
    IO (Except IoError α) := do
  match (← state.get).ports[line]? with
  | none => return .error .notFound
  | some port =>
      try
        return .ok (← work port)
      catch error => return .error (kindOf error)

/-- Goes on with a read until it ends. -/
partial def gather (port : Port) (reading : Serial.Reading) : IO Bytes := do
  let reading ← port.incoming.modifyGet reading.take
  if reading.isOver (← port.incoming.get) (← IO.monoNanosNow) then return reading.got
  else
    IO.sleep 1
    gather port reading

/-! ### Files and the terminal -/

/-- The time of day in words. -/
def timeOfDay : IO String := do
  let now ← Std.Time.Timestamp.now
  return (Std.Time.PlainDateTime.ofWallTime (.ofTimestamp now .zero)).toDateTimeString

def appendLog (path : String) (entry : Serial.LogEntry) : IO (Option String) := do
  try
    let file ← IO.FS.Handle.mk path .append
    file.putStr (entry.text (← timeOfDay))
    return none
  catch error =>
    let number := (numberOf error).elim "" fun n => s!" (os error {n})"
    return some (reasonOf error ++ number)

/-- Prints a line so that it is seen at once. -/
def say (line : String) : IO Unit := do
  let terminal ← IO.getStdout
  terminal.putStrLn line
  terminal.flush

/-- Prints what matters to people. -/
def report (event : Event) : IO Unit := do
  unless event.severity = .debug do
    say ((← timeOfDay) ++ " " ++ event.line)

/-! ### Actions -/

def answer (state : State) : (call : Call) → IO call.Answer
  | .acquireBus _ | .releaseBus _ => return ()
  | .flush line => withPort state line fun port => port.incoming.modify (·.flush)
  | .write line bytes => withPort state line fun port => do
      port.file.write (byteArray bytes)
      port.file.flush
  | .read line count => withPort state line fun port => do
      gather port (.start (← IO.monoNanosNow) port.timeout count)
  | .connect settings host => connect state settings host
  | .transmit stream bytes limit => transmit state stream bytes limit
  | .receive stream count limit => receive state stream count limit
  | .close stream => close state stream
  | .acquireTransport engine => do
      match (← state.get).transports[engine]? with
      | some transport => return transport
      | none => throw (.userError "unknown engine")
  | .releaseTransport engine transport => state.modify fun holdings =>
      { holdings with transports := holdings.transports.setIfInBounds engine transport }
  | .now => IO.monoNanosNow
  | .sleep duration => do sleepUntil ((← IO.monoNanosNow) + duration)
  | .sleepUntil instant => sleepUntil instant
  | .entries _ => return ([] : CacheStore)
  | .publish .. => return ()
  | .command .. => return false
  | .await .. => return Signal.closed
  | .openPort path settings => openPort state path settings
  | .newEngine transport => do
      let holdings ← state.get
      state.set { holdings with transports := holdings.transports.push transport }
      return holdings.transports.size
  | .newCache _ => return (0 : Nat)
  | .startPolling _ => return ()
  | .report event => report event
  | .appendLog path entry => appendLog path entry
  | .print line => say line
  | .panic cause => throw (.userError (match cause with
      | .indexOverflow => "the end of a reply is past every index"
      | .addressOverflow => "an address is past the last one"
      | .instantOverflow => "an instant is past the end of the clock"))

/-- Runs an action in the real world. -/
def perform {α : Type} (state : State) : Action α → IO α
  | .done result => return result
  | .ask call next => do
      let reply ← answer state call
      perform state (next reply)

end ModbusMaster.Live
