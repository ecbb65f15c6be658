import ModbusMaster.ConfigError
import ModbusMaster.Host
import ModbusMaster.Time
import ModbusMaster.Trace

/-!
The two ways of reaching the equipment, as values: a serial line with its options, or a TCP
connection with its settings, and what either says about its last operation.
-/

namespace ModbusMaster

/-- Names a thing outside the master: a line, a bus, a stream, an engine, a cache. -/
abbrev Handle := Nat

/-- Coarse state of a transport after its last operation. -/
inductive TransportState where
  /-- The last operation failed, or there was none. -/
  | unknown
  /-- The last operation succeeded. -/
  | on
  deriving DecidableEq

def TransportState.describe : TransportState → String
  | .unknown => "UNKNOWN"
  | .on => "ON"

/-- What a transport says about its last operation. -/
structure Health where
  state : TransportState := .unknown
  lastError : Option String := none
  deriving DecidableEq

/-- The health after an operation; `wording` is how an error is put. -/
def Health.after {α : Type} (wording : RequestError → String) :
    Except RequestError α → Health
  | .ok _ => ⟨.on, none⟩
  | .error error => ⟨.unknown, some (wording error)⟩

namespace Serial

/-- How a serial port is opened. -/
structure Settings where
  baudRate : UInt32
  /-- How long a read waits for the bytes it asks for. -/
  timeout : Duration
  deriving DecidableEq

/-- How a serial transport behaves. -/
structure Options where
  /-- The file that failed exchanges are appended to. -/
  logFile : Option String := none
  crcCheck : CrcCheck := .strict
  decode : DecodeLevel := .nothing
  deriving DecidableEq

/-- A transport over a serial line. Transports on one bus take turns. -/
structure Transport where
  line : Handle
  bus : Handle
  options : Options
  health : Health := {}
  deriving DecidableEq

/-- A fixed text that shows state and last error. -/
def Transport.describe (transport : Transport) : String :=
  let state := match transport.health.state with
    | .unknown => "Unknown"
    | .on => "On"
  let lastError := match transport.health.lastError with
    | none => "None"
    | some text => "Some(\"" ++ text ++ "\")"
  "SerialTransport \x7b state: " ++ state ++ ", last_error: " ++ lastError ++ " \x7d"

end Serial

namespace Tcp

/-- The port when none is given. -/
def defaultPort : UInt16 := 502

structure Settings where
  host : String
  port : UInt16
  connectTimeout : Duration := .ofSeconds 1
  /-- The limit on every write and every read. -/
  timeout : Duration := .ofSeconds 1
  noDelay : Bool := false
  quickAck : Bool := false
  keepAlive : Bool := false
  /-- The least time between the starts of two connection attempts. -/
  reconnectInterval : Duration := .ofSeconds 2
  decode : DecodeLevel := .nothing
  deriving DecidableEq

inductive ConnectionState where
  | disconnected
  | connecting
  | connected
  deriving DecidableEq

def ConnectionState.describe : ConnectionState → String
  | .disconnected => "Disconnected"
  | .connecting => "Connecting"
  | .connected => "Connected"

/-- A transport over TCP. The connection is opened on demand and dropped on any failure. -/
structure Transport where
  settings : Settings
  /-- The address that the host stands for. -/
  host : Host
  /-- The open connection. -/
  stream : Option Handle := none
  connection : ConnectionState := .disconnected
  /-- When the last attempt to connect was started. -/
  lastAttempt : Option Instant := none
  /-- How many attempts to connect were started; no more than 64 bits can count. -/
  attempts : Nat := 0
  health : Health := {}
  deriving DecidableEq

namespace Transport

/-- A transport that is not connected yet. Port 0 stands for the default port. -/
def of (resolve : String → Option Host) (settings : Settings) : Except ConfigError Transport :=
  let settings := if settings.port = 0 then { settings with port := defaultPort } else settings
  if settings.connectTimeout = 0 then .error (.invalidDuration .connectTimeout)
  else if settings.timeout = 0 then .error (.invalidDuration .exchangeTimeout)
  else
    match resolve settings.host with
    | none => .error (.unknownHost settings.host)
    | some host => .ok { settings, host }

/-- Host and port as they were given. -/
def peer (transport : Transport) : String :=
  transport.settings.host ++ s!":{transport.settings.port.toNat}"

/-- The address and port that connections go to. -/
def address (transport : Transport) : String :=
  transport.host.withPort transport.settings.port

/-- How an error of this transport is put. -/
def wording (transport : Transport) (error : RequestError) : String :=
  "ModbusTCP " ++ transport.peer ++ ": " ++ error.message

end Transport

end Tcp

inductive Transport where
  | rtu (serial : Serial.Transport)
  | tcp (net : Tcp.Transport)
  deriving DecidableEq

namespace Transport

def protocol : Transport → Protocol
  | rtu _ => .rtu
  | tcp _ => .tcp

def health : Transport → Health
  | rtu serial => serial.health
  | tcp net => net.health

/-- The state of the connection; a serial line has none. -/
def connection? : Transport → Option Tcp.ConnectionState
  | rtu _ => none
  | tcp net => some net.connection

/-- The second line of the status: the connected peer, or the last error. -/
def detail? : Transport → Option String
  | rtu serial => serial.health.lastError
  | tcp net =>
      match net.connection with
      | .connected => some ("Connected to " ++ net.peer)
      | _ => net.health.lastError

end Transport

/-- Speaks to one node through a transport that it shares with nobody else. The transport itself
is kept outside, so that operations can take turns with it. -/
structure Engine where
  unit : UnitId
  protocol : Protocol
  transport : Handle
  deriving DecidableEq

end ModbusMaster
