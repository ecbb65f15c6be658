import ModbusMaster.Action

/-!
Exchanges on a serial line. An exchange drops what waits on the line, writes the request and
reads the reply in two parts: the first two bytes tell how many more there are. The bus is held
from the flush to the last read; a failure is logged after it has been given back.
-/

namespace ModbusMaster.Serial.Transport

/-- The bytes of a reply that are read first: node address and function echo. -/
def echoLength : Nat := 2

/-- The transport after an operation with the given result. -/
def after {α : Type} (transport : Transport) (result : Except RequestError α) : Transport :=
  { transport with health := .after RequestError.message result }

def reportFrame (transport : Transport) (direction : Direction) (frame : Bytes) : Action Unit :=
  let level := transport.options.decode.frame
  if level = .nothing then pure () else Action.report (.frame direction level .rtu frame)

def reportBytes (transport : Transport) (direction : Direction) (data : Bytes) : Action Unit :=
  let level := transport.options.decode.physical
  if level = .nothing then pure () else Action.report (.bytes direction level data)

/-- Drops what waits on the line and writes a frame. -/
def writeFrame (transport : Transport) (frame : Bytes) : Action (Except RequestError Unit) := do
  match ← Action.flush transport.line with
  | .error kind => return .error (.ofIo kind)
  | .ok () =>
      transport.reportFrame .sent frame
      transport.reportBytes .sent frame
      match ← Action.write transport.line frame with
      | .error kind => return .error (.ofIo kind)
      | .ok () => return .ok ()

/-- Appends an entry to the log if an exchange failed and there is a log. -/
def logFailure {α : Type} (transport : Transport) (sent received : Bytes)
    (result : Except RequestError α) : Action Unit := do
  match result, transport.options.logFile with
  | .error error, some path =>
      match ← Action.appendLog path ⟨error.message, sent, received⟩ with
      | some reason => Action.report (.logNotWritten path reason)
      | none => return ()
  | _, _ => return ()

/-- How many bytes follow the first two of a reply: a refusal has its own length. Otherwise the sum
is taken to be below `indexLimit`. -/
def remaining (echo : UInt8) (length : Nat) : Nat :=
  if refuses echo then 3 else length + 1

/-- Writes a request and reads the reply; also all the bytes that came back. -/
def exchangeFrame (transport : Transport) (frame : Bytes) (length : Nat) :
    Action (Except RequestError Bytes × Bytes) := do
  match ← transport.writeFrame frame with
  | .error error => return (.error error, [])
  | .ok () =>
      match ← Action.read transport.line echoLength with
      | .error kind => return (.error (.ofIo kind), [])
      | .ok head =>
          match head with
          | _ :: echo :: _ =>
              let count := remaining echo length
              match ← Action.read transport.line count with
              | .error kind => return (.error (.ofIo kind), head)
              | .ok rest =>
                  -- a short reply is not an error yet: decoding finds out what is missing
                  if rest.length < count then
                    Action.report (.missingCharacters count rest.length)
                  let received := head ++ rest
                  transport.reportBytes .received received
                  match Frame.Rtu.decode received length transport.options.crcCheck with
                  | .error error => return (.error error, received)
                  | .ok reply =>
                      transport.reportFrame .received received
                      return (.ok reply, received)
          | _ =>
              transport.reportBytes .received head
              return (.error .responseTimeout, head)

/-- Writes a request and waits for nothing. -/
def send (transport : Transport) (unit : UnitId) (function : UInt8) (payload : Bytes) :
    Action (Except RequestError Unit × Transport) := do
  match Frame.Rtu.encode unit function payload with
  | .error cause =>
      let result := .error (.badRequest cause)
      return (result, transport.after result)
  | .ok frame =>
      Action.acquireBus transport.bus
      let result ← transport.writeFrame frame
      Action.releaseBus transport.bus
      transport.logFailure frame [] result
      return (result, transport.after result)

/-- Writes a request and reads `length` bytes of the reply, from the function echo on. -/
def exchange (transport : Transport) (unit : UnitId) (function : UInt8) (payload : Bytes)
    (length : Nat) : Action (Except RequestError Bytes × Transport) := do
  match Frame.Rtu.encode unit function payload with
  | .error cause =>
      let result := .error (.badRequest cause)
      return (result, transport.after result)
  | .ok frame =>
      Action.acquireBus transport.bus
      let (result, received) ← transport.exchangeFrame frame length
      Action.releaseBus transport.bus
      transport.logFailure frame received result
      return (result, transport.after result)

end ModbusMaster.Serial.Transport
