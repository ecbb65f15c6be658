import ModbusMaster.Config
import ModbusMaster.Document

/-!
The documented forms of the values that are stored: node addresses, protocols, exception codes,
cached functions, event counters, decode levels, retry policies and configurations.
-/

namespace ModbusMaster

open Document

instance : Documented UnitId where
  toDocument unit := .record [("value", toDocument unit.value)]
  ofDocument? document := do
    let field ← document.fields? ["value"]
    let value ← required? (field "value")
    return ⟨value⟩

/-- The name under which a protocol is stored. -/
def Protocol.name : Protocol → String
  | .rtu => "Rtu"
  | .tcp => "Tcp"

instance : Documented Protocol where
  toDocument protocol := .text protocol.name
  ofDocument? := named? Protocol.name [.rtu, .tcp]

def CrcCheck.name : CrcCheck → String
  | .strict => "Strict"
  | .legacy => "Legacy"

instance : Documented CrcCheck where
  toDocument check := .text check.name
  ofDocument? := named? CrcCheck.name [.strict, .legacy]

instance : Documented ExceptionCode where
  toDocument
    | .unknown code => .record [("Unknown", toDocument code)]
    | code => .text code.name
  ofDocument? document :=
    match document.variant? with
    | some ("Unknown", content) => (required? content).map .unknown
    | _ => named? ExceptionCode.name ExceptionCode.defined document

instance : Documented CacheFunction where
  toDocument function := .text function.name
  ofDocument? := named? CacheFunction.name CacheFunction.all

instance : Documented EventCounter where
  toDocument counter :=
    .record [("status", toDocument counter.status), ("event_count", toDocument counter.eventCount)]
  ofDocument? document := do
    let field ← document.fields? ["status", "event_count"]
    let status ← required? (field "status")
    let eventCount ← required? (field "event_count")
    return { status, eventCount }

/-- A length of time as it is stored: seconds and nanoseconds. -/
structure StoredDuration where
  duration : Duration
  deriving DecidableEq

/-- Nanoseconds beyond a second are carried into the seconds, which have to stay below 2^64. Unlike
other records this one may hold no field but the two. -/
instance : Documented StoredDuration where
  toDocument stored :=
    .record [("secs", .integer (Duration.seconds stored.duration)),
      ("nanos", .integer (Duration.nanos stored.duration))]
  ofDocument? document := do
    let known := match document with
      | .record fields => fields.all fun field => field.1 == "secs" || field.1 == "nanos"
      | _ => true
    let field ← document.fields? ["secs", "nanos"]
    let secs : UInt64 ← required? (field "secs")
    let nanos : UInt32 ← required? (field "nanos")
    let duration := Duration.ofSeconds secs.toNat + nanos.toNat
    if known && duration ≤ Duration.longest then return ⟨duration⟩ else none

instance : Documented RetryPolicy where
  toDocument policy :=
    .record [("count", toDocument policy.count),
      ("sleep", toDocument (StoredDuration.mk policy.sleep))]
  ofDocument? document := do
    let field ← document.fields? ["count", "sleep"]
    let count ← required? (field "count")
    let sleep : StoredDuration ← required? (field "sleep")
    return { count, sleep := sleep.duration }

def FrameLevel.name : FrameLevel → String
  | .nothing => "Nothing"
  | .header => "Header"
  | .payload => "Payload"

instance : Documented FrameLevel where
  toDocument level := .text level.name
  ofDocument? := named? FrameLevel.name [.nothing, .header, .payload]

def ByteLevel.name : ByteLevel → String
  | .nothing => "Nothing"
  | .length => "Length"
  | .data => "Data"

instance : Documented ByteLevel where
  toDocument level := .text level.name
  ofDocument? := named? ByteLevel.name [.nothing, .length, .data]

instance : Documented DecodeLevel where
  toDocument level :=
    .record [("frame", toDocument level.frame), ("physical", toDocument level.physical)]
  ofDocument? document := do
    let field ← document.fields? ["frame", "physical"]
    let frame ← required? (field "frame")
    let physical ← required? (field "physical")
    return { frame, physical }

namespace EngineConfig

/-- The names of the stored fields, in their order. -/
def fieldNames : List String :=
  ["protocol", "node", "serial_device", "baud_rate", "serial_timeout", "log_file", "crc_check",
   "tcp_host", "tcp_port", "tcp_connect_timeout", "tcp_timeout", "tcp_no_delay", "tcp_quick_ack",
   "tcp_keep_alive", "cache_blocks", "cache_poll_ms", "cache_max_delta_ms", "retry_count",
   "retry_sleep_ms"]

end EngineConfig

/-- Every field of a stored configuration has a default. -/
instance : Documented EngineConfig where
  toDocument c :=
    .record (EngineConfig.fieldNames.zip
      [toDocument c.protocol, toDocument c.node, toDocument c.serialDevice,
       toDocument c.baudRate, toDocument c.serialTimeout, toDocument c.logFile,
       toDocument c.crcCheck, toDocument c.tcpHost, toDocument c.tcpPort,
       toDocument c.tcpConnectTimeout, toDocument c.tcpTimeout, toDocument c.tcpNoDelay,
       toDocument c.tcpQuickAck, toDocument c.tcpKeepAlive, toDocument c.cacheBlocks,
       toDocument c.cachePollInterval, toDocument c.cacheMaxDelta, toDocument c.retryCount,
       toDocument c.retrySleep])
  ofDocument? document := do
    let d : EngineConfig := {}
    let field ← document.fields? EngineConfig.fieldNames
    let protocol ← optional? d.protocol (field "protocol")
    let node ← optional? d.node (field "node")
    let serialDevice ← optional? d.serialDevice (field "serial_device")
    let baudRate ← optional? d.baudRate (field "baud_rate")
    let serialTimeout ← optional? d.serialTimeout (field "serial_timeout")
    let logFile ← optional? d.logFile (field "log_file")
    let crcCheck ← optional? d.crcCheck (field "crc_check")
    let tcpHost ← optional? d.tcpHost (field "tcp_host")
    let tcpPort ← optional? d.tcpPort (field "tcp_port")
    let tcpConnectTimeout ← optional? d.tcpConnectTimeout (field "tcp_connect_timeout")
    let tcpTimeout ← optional? d.tcpTimeout (field "tcp_timeout")
    let tcpNoDelay ← optional? d.tcpNoDelay (field "tcp_no_delay")
    let tcpQuickAck ← optional? d.tcpQuickAck (field "tcp_quick_ack")
    let tcpKeepAlive ← optional? d.tcpKeepAlive (field "tcp_keep_alive")
    let cacheBlocks ← optional? d.cacheBlocks (field "cache_blocks")
    let cachePollInterval ← optional? d.cachePollInterval (field "cache_poll_ms")
    let cacheMaxDelta ← optional? d.cacheMaxDelta (field "cache_max_delta_ms")
    let retryCount ← optional? d.retryCount (field "retry_count")
    let retrySleep ← optional? d.retrySleep (field "retry_sleep_ms")
    return {
      protocol, node, serialDevice, baudRate, serialTimeout, logFile, crcCheck, tcpHost, tcpPort,
      tcpConnectTimeout, tcpTimeout, tcpNoDelay, tcpQuickAck, tcpKeepAlive, cacheBlocks,
      cachePollInterval, cacheMaxDelta, retryCount, retrySleep }

end ModbusMaster
