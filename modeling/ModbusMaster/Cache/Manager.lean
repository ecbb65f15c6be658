import ModbusMaster.Engine

/-!
Reads through a cache: what lies in a fresh snapshot is answered from memory, everything else by
the equipment. The polling task is told what to do by commands.
-/

namespace ModbusMaster

/-- The cache in front of an engine. -/
structure CacheManager where
  engine : Engine
  cache : Handle
  blocks : List CacheBlock
  /-- The age beyond which a snapshot is not served. -/
  maxDelta : Duration
  deriving DecidableEq

namespace CacheManager

/-- The cells of a range from a fresh snapshot, if there is one. The entries are looked at in one
go. -/
def cached (manager : CacheManager) (function : CacheFunction) (range : AddressRange) :
    Action (Option Cells) := do
  let store ← Action.entries manager.cache
  let now ← Action.now
  match store.lookup? now manager.maxDelta function range with
  | none => return none
  | some cells =>
      Action.report (.servedFromCache function range)
      return some cells

/-- As `cached`, for a start and a count that may not name a range at all. -/
def cachedAt (manager : CacheManager) (function : CacheFunction) (start count : UInt16) :
    Action (Option Cells) :=
  match AddressRange.of start count with
  | .error _ => return none
  | .ok range => manager.cached function range

def isCached (manager : CacheManager) (function : CacheFunction) (start count : UInt16) :
    Action Bool :=
  Option.isSome <$> manager.cachedAt function start count

/-- Cells from the cache when possible, else from the equipment, which also reports a range that
is invalid. -/
def read (manager : CacheManager) (function : CacheFunction) (start count : UInt16) :
    Action (Except RequestError Cells) := do
  match ← manager.cachedAt function start count with
  | some cells => return .ok cells
  | none => manager.engine.submit (function.request start count)

/-- Gives the polling task a command. -/
def send (manager : CacheManager) (command : Command) : Action (Except RequestError Unit) := do
  if ← Action.command manager.cache command then return .ok ()
  else return .error .shutdown

end CacheManager

/-- The manager and the polling task of a new cache; the task does not run yet. -/
def CacheConfig.create (config : CacheConfig) (engine : Engine) :
    Action (CacheManager × PollTask) := do
  let cache ← Action.newCache config.blocks
  return (⟨engine, cache, config.blocks, config.maxDelta⟩,
    ⟨engine, cache, config.blocks, config.pollInterval⟩)

end ModbusMaster
