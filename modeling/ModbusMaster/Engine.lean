import ModbusMaster.Serial.Exchange
import ModbusMaster.Tcp.Exchange

/-!
An engine lets operations take turns with one transport. Arguments are checked before the turn,
so a refused request touches nothing.
-/

namespace ModbusMaster

namespace Transport

/-- Connects ahead of the first request; a serial line is always ready. -/
def connect : Transport → Action (Except RequestError Unit × Transport)
  | rtu serial => return (.ok (), rtu serial)
  | tcp net => do
      let (result, net) ← net.connect
      return (result, tcp net)

/-- Closes the connection; a serial line stays as it is. -/
def disconnect : Transport → Action Transport
  | rtu serial => return rtu serial
  | tcp net => do
      let net ← net.disconnect
      return tcp net

/-- Writes a request and waits for nothing. -/
def send (transport : Transport) (unit : UnitId) (function : UInt8) (payload : Bytes) :
    Action (Except RequestError Unit × Transport) := do
  match transport with
  | rtu serial =>
      let (result, serial) ← serial.send unit function payload
      return (result, rtu serial)
  | tcp net =>
      let (result, net) ← net.send unit function payload
      return (result, tcp net)

/-- Writes a request and reads `length` bytes of the reply, from the function echo on. -/
def exchange (transport : Transport) (unit : UnitId) (function : UInt8) (payload : Bytes)
    (length : Nat) : Action (Except RequestError Bytes × Transport) := do
  match transport with
  | rtu serial =>
      let (result, serial) ← serial.exchange unit function payload length
      return (result, rtu serial)
  | tcp net =>
      let (result, net) ← net.exchange unit function payload length
      return (result, tcp net)

end Transport

namespace Engine

variable {α : Type}

/-- Does something with the transport while nobody else can. -/
def use (engine : Engine) (work : Transport → Action (α × Transport)) : Action α := do
  let transport ← Action.acquireTransport engine.transport
  let (result, transport) ← work transport
  Action.releaseTransport engine.transport transport
  return result

/-- Looks at the transport when it is this caller's turn. -/
def observe (engine : Engine) (view : Transport → α) : Action α :=
  engine.use fun transport => return (view transport, transport)

def connect (engine : Engine) : Action (Except RequestError Unit) :=
  engine.use fun transport => transport.connect

def exchange (engine : Engine) (function : UInt8) (payload : Bytes) (length : Nat) :
    Action (Except RequestError Bytes) :=
  engine.use fun transport => transport.exchange engine.unit function payload length

/-- Writes a request to any node and waits for nothing. -/
def sendTo (engine : Engine) (unit : UnitId) (function : UInt8) (payload : Bytes) :
    Action (Except RequestError Unit) :=
  engine.use fun transport => transport.send unit function payload

/-- Writes a request to the engine's node and waits for nothing. -/
def send (engine : Engine) (function : UInt8) (payload : Bytes) :
    Action (Except RequestError Unit) :=
  engine.sendTo engine.unit function payload

def state (engine : Engine) : Action TransportState :=
  engine.observe fun transport => transport.health.state

def lastError (engine : Engine) : Action (Option String) :=
  engine.observe fun transport => transport.health.lastError

def connection? (engine : Engine) : Action (Option Tcp.ConnectionState) :=
  engine.observe Transport.connection?

/-- The status in words: the node and the protocol, then the connected peer or the last error. -/
def status (engine : Engine) : Action String := do
  let detail ← engine.observe Transport.detail?
  let header :=
    s!"Modbus node address {engine.unit.value.toNat} protocol " ++ engine.protocol.describe
  match detail with
  | none => return header
  | some detail => return header ++ "\n" ++ detail

/-- Sends a request and reads the answer in the reply. -/
def execute (engine : Engine) (request : Request α) : Action (Except RequestError α) := do
  match ← engine.exchange request.function.code request.payload request.replyLength with
  | .error error => return .error error
  | .ok reply => return (request.answerOf reply).mapError .badResponse

/-- Executes a request whose arguments have passed their checks. -/
def submit (engine : Engine) (request : Except InvalidRequest (Request α)) :
    Action (Except RequestError α) :=
  match request with
  | .error cause => return .error (.badRequest cause)
  | .ok request => engine.execute request

/-- Performs an operation. -/
def perform (engine : Engine) (operation : Operation) : Action (Except RequestError Value) := do
  match operation.demand with
  | .error cause => return .error (.badRequest cause)
  | .ok (.exchange request) => engine.execute request
  | .ok (.broadcast function payload) =>
      let result ← engine.sendTo UnitId.broadcast function.code payload
      return result.map fun _ => .nothing

end Engine

end ModbusMaster
