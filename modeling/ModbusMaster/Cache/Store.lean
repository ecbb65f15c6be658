import ModbusMaster.Cache.Block
import ModbusMaster.Operation
import ModbusMaster.Transport

/-!
Snapshots of polled blocks. A read that lies inside a block with a snapshot that is young enough
is answered from it; of several such blocks the first one answers.
-/

namespace ModbusMaster

/-- Contents of cells: states of coils and inputs, or registers. -/
inductive Cells where
  | bits (states : List Bool)
  | registers (contents : List UInt16)
  deriving DecidableEq

namespace Cells

/-- The part of `count` cells from an offset on, if there are so many. -/
def slice? (offset count : Nat) : Cells → Option Cells
  | bits states =>
      if offset + count ≤ states.length then some (bits ((states.drop offset).take count))
      else none
  | registers contents =>
      if offset + count ≤ contents.length then
        some (registers ((contents.drop offset).take count))
      else none

/-- Cells as the answer to a read. -/
def value : Cells → Value
  | bits states => .bits states
  | registers contents => .registers contents

end Cells

/-- The contents of a block and when they were read. -/
structure Snapshot where
  cells : Cells
  taken : Instant
  deriving DecidableEq

/-- A block and its last snapshot. -/
structure CacheEntry where
  block : CacheBlock
  snapshot : Option Snapshot := none
  deriving DecidableEq

/-- The cells of `range` if the entry's snapshot is no older than `maxDelta`. -/
def CacheEntry.lookup? (entry : CacheEntry) (now : Instant) (maxDelta : Duration)
    (range : AddressRange) : Option Cells :=
  match entry.snapshot with
  | none => none
  | some snapshot =>
      if maxDelta < now - snapshot.taken then none
      else snapshot.cells.slice? (range.first - entry.block.range.first) range.count.toNat

/-- The entries of a cache, in the order of its configuration. -/
abbrev CacheStore := List CacheEntry

namespace CacheStore

/-- A store without any snapshot. -/
def ofBlocks (blocks : List CacheBlock) : CacheStore :=
  blocks.map fun block => { block }

/-- The cells of `range` in the first block that covers it and has a young enough snapshot. -/
def lookup? (store : CacheStore) (now : Instant) (maxDelta : Duration)
    (function : CacheFunction) (range : AddressRange) : Option Cells :=
  store.findSome? fun entry =>
    if entry.block.covers function range then entry.lookup? now maxDelta range else none

/-- Replaces the snapshot of one entry. -/
def publish (store : CacheStore) (index : Nat) (snapshot : Snapshot) : CacheStore :=
  store.modify index fun entry => { entry with snapshot := some snapshot }

end CacheStore

/-- Which blocks are polled and how often. -/
structure CacheConfig where
  /-- The blocks, polled in this order. -/
  blocks : List CacheBlock
  /-- The time between the end of a sweep and the start of the next. -/
  pollInterval : Duration
  /-- The age from which a snapshot is not served any more, if it is set. -/
  maxAllowedDelta : Option Duration := none
  deriving DecidableEq

/-- The age beyond which a snapshot is not served: as set, else three poll intervals. -/
def CacheConfig.maxDelta (config : CacheConfig) : Duration :=
  config.maxAllowedDelta.getD (Duration.triple config.pollInterval)

/-- The task that polls the blocks of one cache through an engine. -/
structure PollTask where
  engine : Engine
  cache : Handle
  blocks : List CacheBlock
  /-- The time between the end of a sweep and the start of the next. -/
  interval : Duration
  deriving DecidableEq

/-- The request that a function polls a range with. -/
def CacheFunction.request (start count : UInt16) :
    CacheFunction → Except InvalidRequest (Request Cells)
  | readHoldingRegisters => (·.map .registers) <$> Request.readHoldingRegisters start count
  | readInputRegisters => (·.map .registers) <$> Request.readInputRegisters start count
  | readInputStatus => (·.map .bits) <$> Request.readDiscreteInputs start count
  | readMultipleCoils => (·.map .bits) <$> Request.readCoils start count

end ModbusMaster
