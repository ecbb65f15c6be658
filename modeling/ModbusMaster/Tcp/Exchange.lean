import ModbusMaster.Action

/-!
Exchanges over TCP. The connection is opened when it is needed, no more often than the reconnect
interval allows, and closed after any failure. When the peer has closed the connection instead of
answering, the request is written once more on a new one.
-/

namespace ModbusMaster.Tcp.Transport

/-- The transport after an operation with the given result. -/
def after {α : Type} (transport : Transport) (result : Except RequestError α) : Transport :=
  { transport with health := .after transport.wording result }

def reportFrame (transport : Transport) (direction : Direction) (frame : Bytes) : Action Unit :=
  let level := transport.settings.decode.frame
  if level = .nothing then pure () else Action.report (.frame direction level .tcp frame)

def reportBytes (transport : Transport) (direction : Direction) (data : Bytes) : Action Unit :=
  let level := transport.settings.decode.physical
  if level = .nothing then pure () else Action.report (.bytes direction level data)

/-- The error of an attempt to connect. -/
def connectError : Interruption → RequestError
  | .failed kind => .ofIo kind
  | .elapsed => .io .timedOut

/-- The error of a read or a write. -/
def exchangeError : Interruption → RequestError
  | .failed kind => .ofIo kind
  | .elapsed => .responseTimeout

/-- Whether another attempt to connect would come too early. -/
def tooEarly (transport : Transport) (now : Instant) : Bool :=
  match transport.lastAttempt with
  | none => false
  | some last => now - last < transport.settings.reconnectInterval

/-- Opens the connection if there is none. -/
def connect (transport : Transport) : Action (Except RequestError Unit × Transport) := do
  match transport.stream with
  | some _ => return (.ok (), transport)
  | none =>
      let now ← Action.now
      if transport.tooEarly now then
        Action.report (.rateLimited transport.address)
        return (.error .noConnection, transport)
      else
        -- the interval counts from here, whatever the attempt comes to
        let start ← Action.now
        let attempt := { transport with
          lastAttempt := some start
          attempts := transport.attempts + 1
          connection := .connecting }
        match ← Action.connect transport.settings transport.host with
        | .ok stream =>
            Action.report (.connected transport.address)
            return (.ok (), { attempt with stream := some stream, connection := .connected })
        | .error interruption =>
            let error := connectError interruption
            Action.report (.notConnected transport.address error)
            return (.error error, { attempt with connection := .disconnected })

/-- Closes the connection if there is one. -/
def disconnect (transport : Transport) : Action Transport := do
  match transport.stream with
  | none => return { transport with connection := .disconnected }
  | some stream =>
      Action.close stream
      Action.report (.disconnected transport.address)
      return { transport with stream := none, connection := .disconnected }

/-- Writes a frame; a failure closes the connection. -/
def writeFrame (transport : Transport) (frame : Bytes) :
    Action (Except RequestError Unit × Transport) := do
  match transport.stream with
  | none => return (.error .noConnection, transport)
  | some stream =>
      transport.reportFrame .sent frame
      transport.reportBytes .sent frame
      match ← Action.transmit stream frame transport.settings.timeout with
      | .ok () => return (.ok (), transport)
      | .error interruption =>
          let transport ← transport.disconnect
          return (.error (exchangeError interruption), transport)

/-- Reads once what there is; nothing means that the peer has closed the connection, and a
failure closes it. -/
def readOnce (transport : Transport) : Action (Except RequestError Bytes × Transport) := do
  match transport.stream with
  | none => return (.error .noConnection, transport)
  | some stream =>
      match ← Action.receive stream Frame.maxLength transport.settings.timeout with
      | .ok raw =>
          transport.reportBytes .received raw
          return (.ok raw, transport)
      | .error interruption =>
          let transport ← transport.disconnect
          return (.error (exchangeError interruption), transport)

/-- Connects if necessary, writes a frame and reads once. -/
def attempt (transport : Transport) (frame : Bytes) :
    Action (Except RequestError Bytes × Transport) := do
  match ← transport.connect with
  | (.error error, transport) => return (.error error, transport)
  | (.ok (), transport) =>
      match ← transport.writeFrame frame with
      | (.error error, transport) => return (.error error, transport)
      | (.ok (), transport) => transport.readOnce

/-- The reply in what was read. What is no frame closes the connection, since the rest of the
frame may still be on its way. -/
def acceptReply (transport : Transport) (raw : Bytes) (length : Nat) :
    Action (Except RequestError Bytes × Transport) := do
  Action.require (Frame.Tcp.Indexed raw length) .indexOverflow
  match Frame.Tcp.decode raw length with
  | .ok reply =>
      transport.reportFrame .received raw
      return (.ok reply, transport)
  | .error (.badFrame cause) =>
      let transport ← transport.disconnect
      return (.error (.badFrame cause), transport)
  | .error error => return (.error error, transport)

/-- Waits until another attempt to connect is allowed. -/
def awaitReconnect (transport : Transport) : Action Unit := do
  match transport.lastAttempt with
  | none => return ()
  | some last =>
      let due := last + transport.settings.reconnectInterval
      Action.require (due < Instant.limit) .instantOverflow
      Action.sleepUntil due

/-- Writes a frame and reads the reply, once more if the peer has closed the connection. -/
def exchangeFrame (transport : Transport) (frame : Bytes) (length : Nat) :
    Action (Except RequestError Bytes × Transport) := do
  match ← transport.attempt frame with
  | (.error error, transport) => return (.error error, transport)
  | (.ok [], transport) =>
      -- the peer had given the connection up, so the request was not answered
      let transport ← transport.disconnect
      Action.report .closedByPeer
      transport.awaitReconnect
      match ← transport.attempt frame with
      | (.error error, transport) => return (.error error, transport)
      | (.ok [], transport) =>
          let transport ← transport.disconnect
          return (.error (.io .unexpectedEof), transport)
      | (.ok raw, transport) => transport.acceptReply raw length
  | (.ok raw, transport) => transport.acceptReply raw length

/-- Writes a request and waits for nothing. -/
def send (transport : Transport) (unit : UnitId) (function : UInt8) (payload : Bytes) :
    Action (Except RequestError Unit × Transport) := do
  match Frame.Tcp.encode unit function payload with
  | .error cause =>
      let result := .error (.badRequest cause)
      return (result, transport.after result)
  | .ok frame =>
      match ← transport.connect with
      | (.error error, transport) =>
          let result := .error error
          return (result, transport.after result)
      | (.ok (), transport) =>
          let (result, transport) ← transport.writeFrame frame
          return (result, transport.after result)

/-- Writes a request and reads `length` bytes of the reply, from the function echo on. -/
def exchange (transport : Transport) (unit : UnitId) (function : UInt8) (payload : Bytes)
    (length : Nat) : Action (Except RequestError Bytes × Transport) := do
  match Frame.Tcp.encode unit function payload with
  | .error cause =>
      let result := .error (.badRequest cause)
      return (result, transport.after result)
  | .ok frame =>
      let (result, transport) ← transport.exchangeFrame frame length
      return (result, transport.after result)

end ModbusMaster.Tcp.Transport
