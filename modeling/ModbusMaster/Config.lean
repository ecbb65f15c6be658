import ModbusMaster.Retry

/-!
The configuration of a device as a plain record, and the checked values in it. Lengths of time are
numbers of seconds or milliseconds, cache blocks are descriptors. A configuration is valid when
everything that the selected protocol needs is; the settings of the other protocol do not matter.
-/

namespace ModbusMaster

structure EngineConfig where
  protocol : Protocol := .rtu
  /-- The node address of the equipment. -/
  node : UInt8 := UnitId.default.value
  serialDevice : String := ""
  baudRate : UInt32 := 9600
  /-- In seconds. -/
  serialTimeout : Double := .one
  /-- The diagnostic log; there is none when this is blank. -/
  logFile : String := ""
  crcCheck : CrcCheck := .strict
  tcpHost : String := ""
  /-- Port 0 stands for the default port. -/
  tcpPort : UInt16 := 0
  /-- In seconds. -/
  tcpConnectTimeout : Double := .one
  /-- In seconds. -/
  tcpTimeout : Double := .one
  tcpNoDelay : Bool := false
  tcpQuickAck : Bool := false
  tcpKeepAlive : Bool := false
  /-- Descriptors of the blocks that are polled. -/
  cacheBlocks : List String := []
  /-- In milliseconds. -/
  cachePollInterval : UInt64 := 500
  /-- In milliseconds. -/
  cacheMaxDelta : Option UInt64 := none
  retryCount : UInt16 := 0
  /-- In milliseconds. -/
  retrySleep : UInt64 := 0
  deriving DecidableEq

/-- The protocol with the given name, in any case and with blanks around it. -/
def Protocol.parse (name : String) : Except ConfigError Protocol :=
  let word := (Text.trim name.toList).map Char.toUpper
  if word = "RTU".toList then .ok .rtu
  else if word = "TCP".toList then .ok .tcp
  else .error (.unknownProtocol name)

/-- The cached function with the given name, with blanks around it. -/
def CacheFunction.parse (name : String) : Except ConfigError CacheFunction :=
  match CacheFunction.ofName? (Text.trim name.toList) with
  | some function => .ok function
  | none => .error (.badCacheBlock name .functionName)

/-- The block that a descriptor names. -/
def CacheBlock.ofDescriptor (descriptor : String) : Except ConfigError CacheBlock :=
  (CacheBlock.parse descriptor.toList).mapError (.badCacheBlock descriptor)

/-- The block of a function and a range, as `CacheBlock.of`. -/
def CacheBlock.check (function : CacheFunction) (start count : UInt16) :
    Except ConfigError CacheBlock :=
  (CacheBlock.of function start count).mapError
    (.badCacheBlock (CacheBlock.descriptor function start count))

/-- A text without the blanks at its ends. -/
def trimmed (text : String) : String :=
  String.ofList (Text.trim text.toList)

/-- A length of time that is not zero. -/
def TimeSetting.check (setting : TimeSetting) (seconds : Double) : Except ConfigError Duration :=
  match Duration.ofDouble? seconds with
  | some duration => if duration = 0 then .error (.invalidDuration setting) else .ok duration
  | none => .error (.invalidDuration setting)

namespace EngineConfig

/-- The node address; the broadcast address and those reserved on a serial line are refused. -/
def unit (config : EngineConfig) : Except ConfigError UnitId :=
  let unit : UnitId := ⟨config.node⟩
  if unit = .broadcast ∨ (config.protocol = .rtu ∧ unit.isRtuReserved) then
    .error (.reservedNode config.node)
  else .ok unit

def serialSettings (config : EngineConfig) : Except ConfigError Serial.Settings := do
  if trimmed config.serialDevice = "" then throw (.missing .serialDevice)
  let timeout ← TimeSetting.serialTimeout.check config.serialTimeout
  return { baudRate := config.baudRate, timeout }

def serialOptions (config : EngineConfig) (decode : DecodeLevel) : Serial.Options where
  logFile := if trimmed config.logFile = "" then none else some (trimmed config.logFile)
  crcCheck := config.crcCheck
  decode := decode

def tcpSettings (config : EngineConfig) : Except ConfigError Tcp.Settings := do
  if trimmed config.tcpHost = "" then throw (.missing .tcpHost)
  let connectTimeout ← TimeSetting.tcpConnectTimeout.check config.tcpConnectTimeout
  let timeout ← TimeSetting.tcpTimeout.check config.tcpTimeout
  return {
    host := trimmed config.tcpHost
    port := config.tcpPort
    connectTimeout
    timeout
    noDelay := config.tcpNoDelay
    quickAck := config.tcpQuickAck
    keepAlive := config.tcpKeepAlive }

/-- The staleness limit, if one is set. -/
def maxDelta (config : EngineConfig) : Except ConfigError (Option Duration) :=
  match config.cacheMaxDelta with
  | none => .ok none
  | some millis =>
      if millis = 0 then .error (.invalidDuration .cacheMaxDelta)
      else .ok (some (Duration.ofMillis millis.toNat))

/-- What is polled; nothing when there are no blocks. -/
def cacheConfig (config : EngineConfig) : Except ConfigError (Option CacheConfig) := do
  if config.cacheBlocks = [] then return none
  let blocks ← config.cacheBlocks.mapM CacheBlock.ofDescriptor
  if config.cachePollInterval = 0 then throw (.invalidDuration .cachePollInterval)
  let maxAllowedDelta ← config.maxDelta
  return some {
    blocks
    pollInterval := Duration.ofMillis config.cachePollInterval.toNat
    maxAllowedDelta }

def retryPolicy (config : EngineConfig) : RetryPolicy where
  count := config.retryCount
  sleep := Duration.ofMillis config.retrySleep.toNat

/-- The settings of the selected protocol, if they are valid. -/
def protocolSettings (config : EngineConfig) :
    Except ConfigError (Serial.Settings ⊕ Tcp.Settings) :=
  match config.protocol with
  | .rtu => .inl <$> config.serialSettings
  | .tcp => .inr <$> config.tcpSettings

/-- Checks everything that the device would be built from, without opening anything. -/
def validate (config : EngineConfig) : Except ConfigError Unit := do
  let _ ← config.unit
  let _ ← config.cacheConfig
  let _ ← config.protocolSettings
  return ()

end EngineConfig

end ModbusMaster
