import ModbusMaster.AddressRange
import ModbusMaster.Text.Blank
import ModbusMaster.Text.Numeral

/-!
Blocks: ranges of cells that are polled in the background. A block is written as a descriptor
`FunctionName,startAddress,count`.
-/

namespace ModbusMaster

/-- The reads whose answers can be kept. -/
inductive CacheFunction where
  | readHoldingRegisters
  | readInputRegisters
  | readInputStatus
  | readMultipleCoils
  deriving DecidableEq

namespace CacheFunction

def all : List CacheFunction :=
  [readHoldingRegisters, readInputRegisters, readInputStatus, readMultipleCoils]

def name : CacheFunction → String
  | readHoldingRegisters => "ReadHoldingRegisters"
  | readInputRegisters => "ReadInputRegisters"
  | readInputStatus => "ReadInputStatus"
  | readMultipleCoils => "ReadMultipleCoils"

def ofName? (name : List Char) : Option CacheFunction :=
  all.find? fun function => function.name.toList == name

/-- How many cells one read of this kind may ask for. -/
def limit : CacheFunction → UInt16
  | readHoldingRegisters | readInputRegisters => AddressRange.maxReadRegisters
  | readInputStatus | readMultipleCoils => AddressRange.maxReadBits

end CacheFunction

/-- A range of cells of one kind. The range need not be one that a single read may ask for;
`CacheBlock.of` checks that it is. -/
structure CacheBlock where
  function : CacheFunction
  range : AddressRange
  deriving DecidableEq

namespace CacheBlock

/-- Why a descriptor does not name a block. -/
inductive Fault where
  | fieldCount
  | functionName
  | startAddress
  | count
  | addressRange
  | frame
  deriving DecidableEq

def Fault.message : Fault → String
  | .fieldCount => "expected FunctionName,startAddress,count"
  | .functionName => "unknown function name"
  | .startAddress => "invalid start address"
  | .count => "invalid count"
  | .addressRange => "invalid address range"
  | .frame => "count exceeds one frame"

/-- The block with the given function and range, if one read may ask for all of it. -/
def of (function : CacheFunction) (start count : UInt16) : Except Fault CacheBlock :=
  match AddressRange.of start count with
  | .error _ => .error .addressRange
  | .ok range => if function.limit < count then .error .frame else .ok ⟨function, range⟩

/-- Reads a descriptor; the first part that is wrong is the one reported. -/
def parse (descriptor : List Char) : Except Fault CacheBlock :=
  match (Text.fields ',' descriptor).map Text.trim with
  | [function, start, count] =>
      match CacheFunction.ofName? function with
      | none => .error .functionName
      | some function =>
          match Numeral.parseWord start, Numeral.parseWord count with
          | .error _, _ => .error .startAddress
          | _, .error _ => .error .count
          | .ok start, .ok count => of function start count
  | _ => .error .fieldCount

/-- The descriptor of a function and a range. -/
def descriptor (function : CacheFunction) (start count : UInt16) : String :=
  function.name ++ s!",{start.toNat},{count.toNat}"

/-- Whether a read of `function` over `range` asks for cells of this block only. -/
def covers (block : CacheBlock) (function : CacheFunction) (range : AddressRange) : Bool :=
  block.function == function && block.range.contains range

end CacheBlock

end ModbusMaster
