import ModbusMaster.Cache.Manager
import ModbusMaster.Config
import ModbusMaster.Host.Resolution

/-!
A device is one piece of equipment as its users see it: an engine, a cache for the reads that can
be answered from memory, and the policy by which operations are repeated.
-/

namespace ModbusMaster

structure Device where
  engine : Engine
  cache : Option CacheManager := none
  retry : RetryPolicy := {}
  deriving DecidableEq

namespace Device

/-- A new device over a transport; if it has a cache, its polling task is started. -/
def create (transport : Transport) (unit : UnitId) (cache : Option CacheConfig)
    (retry : RetryPolicy) : Action Device := do
  let handle ← Action.newEngine transport
  let engine : Engine := ⟨unit, transport.protocol, handle⟩
  match cache with
  | none => return { engine, retry }
  | some config =>
      let (manager, task) ← config.create engine
      Action.startPolling task
      return { engine, cache := some manager, retry }

/-- A read through a cache, as a value. -/
def readThrough (manager : CacheManager) (function : CacheFunction) (start count : UInt16) :
    Action (Except RequestError Value) := do
  let result ← manager.read function start count
  return result.map Cells.value

/-- The state of the only coil that was read. -/
def onlyState : Value → Except RequestError Value
  | .bits states => ((firstState states).map .bit).mapError .badResponse
  | _ => .error (.badResponse (.byteCountMismatch 0 1))

/-- One attempt at an operation: reads go through the cache if there is one. -/
def attempt (device : Device) (operation : Operation) : Action (Except RequestError Value) := do
  match device.cache, operation with
  | some manager, .readCoil address =>
      let result ← readThrough manager .readMultipleCoils address 1
      return result.bind onlyState
  | some manager, .readCoils start count => readThrough manager .readMultipleCoils start count
  | some manager, .readDiscreteInputs start count =>
      readThrough manager .readInputStatus start count
  | some manager, .readHoldingRegisters start count =>
      readThrough manager .readHoldingRegisters start count
  | some manager, .readInputRegisters start count =>
      readThrough manager .readInputRegisters start count
  | _, operation => device.engine.perform operation

/-- Performs an operation, repeating it as the policy says. -/
def perform (device : Device) (operation : Operation) : Action (Except RequestError Value) :=
  device.retry.run (device.attempt operation)

end Device

/-- The bus that all serial devices share unless they are given another. -/
def globalBus : Handle := 0

namespace EngineConfig

/-- The transport that a configuration describes. A serial port is opened; a connection is not. -/
def openTransport (resolve : String → Option Host) (config : EngineConfig) (decode : DecodeLevel) :
    Action (Except ConfigError Transport) := do
  match config.protocolSettings with
  | .error error => return .error error
  | .ok (.inr settings) => return (Tcp.Transport.of resolve { settings with decode }).map .tcp
  | .ok (.inl settings) =>
      let path := trimmed config.serialDevice
      match ← Action.openPort path settings with
      | .error reason => return .error (.serialOpen path reason)
      | .ok line =>
          Action.report (.portOpened path settings.baudRate.toNat)
          let options := config.serialOptions decode
          return .ok (.rtu { line, bus := globalBus, options })

/-- Builds the device that a configuration describes; `resolve` finds the address of a host.
Nothing is opened or started unless the configuration is valid. What the device needs of it is
then asked for again, piece by piece. -/
def buildWith (resolve : String → Option Host) (config : EngineConfig) (decode : DecodeLevel) :
    Action (Except ConfigError Device) := do
  match config.validate, config.unit with
  | .error error, _ | .ok (), .error error => return .error error
  | .ok (), .ok unit =>
      match ← config.openTransport resolve decode with
      | .error error => return .error error
      | .ok transport =>
          Action.report (.deviceBuilt unit config.protocol config.cacheBlocks.length)
          match config.cacheConfig with
          | .error error => return .error error
          | .ok cache => return .ok (← Device.create transport unit cache config.retryPolicy)

/-- Builds the device that a configuration describes, without asking anybody for an address. -/
def build (config : EngineConfig) (decode : DecodeLevel) : Action (Except ConfigError Device) :=
  config.buildWith Host.resolve? decode

end EngineConfig

end ModbusMaster
