import ModbusMaster.Text.Hex

/-!
The function codes that the typed requests use, and how a trace names the function byte of a
frame. A reply that refuses the request sets the top bit of that byte.
-/

namespace ModbusMaster

inductive Function where
  | readCoils
  | readDiscreteInputs
  | readHoldingRegisters
  | readInputRegisters
  | writeSingleCoil
  | writeSingleRegister
  | readExceptionStatus
  | fetchCommEventCounter
  | writeMultipleCoils
  | writeMultipleRegisters
  | maskWriteRegister
  | readWriteMultipleRegisters
  deriving DecidableEq

namespace Function

def code : Function → UInt8
  | readCoils => 1
  | readDiscreteInputs => 2
  | readHoldingRegisters => 3
  | readInputRegisters => 4
  | writeSingleCoil => 5
  | writeSingleRegister => 6
  | readExceptionStatus => 7
  | fetchCommEventCounter => 11
  | writeMultipleCoils => 15
  | writeMultipleRegisters => 16
  | maskWriteRegister => 22
  | readWriteMultipleRegisters => 23

def name : Function → String
  | readCoils => "READ COILS"
  | readDiscreteInputs => "READ DISCRETE INPUTS"
  | readHoldingRegisters => "READ HOLDING REGISTERS"
  | readInputRegisters => "READ INPUT REGISTERS"
  | writeSingleCoil => "WRITE SINGLE COIL"
  | writeSingleRegister => "WRITE SINGLE REGISTER"
  | readExceptionStatus => "READ EXCEPTION STATUS"
  | fetchCommEventCounter => "FETCH COMM EVENT COUNTER"
  | writeMultipleCoils => "WRITE MULTIPLE COILS"
  | writeMultipleRegisters => "WRITE MULTIPLE REGISTERS"
  | maskWriteRegister => "MASK WRITE REGISTER"
  | readWriteMultipleRegisters => "READ/WRITE MULTIPLE REGISTERS"

def all : List Function :=
  [readCoils, readDiscreteInputs, readHoldingRegisters, readInputRegisters, writeSingleCoil,
   writeSingleRegister, readExceptionStatus, fetchCommEventCounter, writeMultipleCoils,
   writeMultipleRegisters, maskWriteRegister, readWriteMultipleRegisters]

def ofCode? (code : UInt8) : Option Function :=
  all.find? fun function => function.code == code

def describe (function : Function) : String :=
  function.name ++ " (" ++ Hex.byteLiteral function.code ++ ")"

end Function

/-- Whether a function byte marks a refusal. -/
def refuses (function : UInt8) : Bool :=
  128 ≤ function.toNat

/-- A function byte without the mark of a refusal. -/
def withoutRefusal (function : UInt8) : UInt8 :=
  UInt8.ofNat (function.toNat % 128)

/-- The function byte of a frame, by name if it has one. -/
def describeFunction (function : UInt8) : String :=
  match Function.ofCode? (withoutRefusal function) with
  | some known =>
      if refuses function then "EXCEPTION " ++ known.describe else known.describe
  | none => "UNKNOWN (" ++ Hex.byteLiteral function ++ ")"

end ModbusMaster
