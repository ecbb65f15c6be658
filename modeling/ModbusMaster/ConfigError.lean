import ModbusMaster.Cache.Block

/-!
What can be wrong with a configuration, as causes.
-/

namespace ModbusMaster

/-- The settings that are lengths of time. -/
inductive TimeSetting where
  | serialTimeout
  | tcpConnectTimeout
  | tcpTimeout
  | cachePollInterval
  | cacheMaxDelta
  /-- The connect timeout of a connection that is set up directly. -/
  | connectTimeout
  /-- The timeout of a connection that is set up directly. -/
  | exchangeTimeout
  deriving DecidableEq

def TimeSetting.name : TimeSetting → String
  | serialTimeout => "serial timeout"
  | tcpConnectTimeout => "TCP connect timeout"
  | tcpTimeout => "TCP timeout"
  | cachePollInterval => "cache poll interval"
  | cacheMaxDelta => "cache max delta"
  | connectTimeout => "tcp connect timeout"
  | exchangeTimeout => "tcp timeout"

/-- The settings that the selected protocol cannot do without. -/
inductive NeededSetting where
  | serialDevice
  | tcpHost
  deriving DecidableEq

def NeededSetting.name : NeededSetting → String
  | serialDevice => "serial device"
  | tcpHost => "TCP host"

inductive ConfigError where
  | unknownHost (host : String)
  | badCacheBlock (descriptor : String) (fault : CacheBlock.Fault)
  | invalidDuration (setting : TimeSetting)
  | reservedNode (unit : UInt8)
  | missing (setting : NeededSetting)
  | serialOpen (path reason : String)
  | unknownProtocol (name : String)
  deriving DecidableEq

namespace ConfigError

def message : ConfigError → String
  | unknownHost host => s!"cannot resolve host {host}"
  | badCacheBlock descriptor fault =>
      "bad cache block descriptor \"" ++ descriptor ++ "\": " ++ fault.message
  | invalidDuration setting => "invalid value for " ++ setting.name
  | reservedNode unit => s!"node address {unit.toNat} is reserved"
  | missing setting => "missing " ++ setting.name ++ " for the selected protocol"
  | serialOpen path reason => s!"cannot open serial line {path}: {reason}"
  | unknownProtocol name => s!"unknown protocol {name}, expected RTU or TCP"

/-- The name of the kind of error. -/
def name : ConfigError → String
  | unknownHost _ => "UnknownHost"
  | badCacheBlock .. => "BadCacheBlock"
  | invalidDuration _ => "InvalidDuration"
  | reservedNode _ => "ReservedNode"
  | missing _ => "Missing"
  | serialOpen .. => "SerialOpen"
  | unknownProtocol _ => "UnknownProtocol"

end ConfigError

end ModbusMaster
