import ModbusMaster.Request

/-!
The operations that the equipment supports, as data: what a caller asks for, what the request on
the wire is, and the value that comes back.
-/

namespace ModbusMaster

/-- The answer to an operation. -/
inductive Value where
  | nothing
  | bit (state : Bool)
  | bits (states : List Bool)
  | registers (contents : List UInt16)
  | byte (content : UInt8)
  | counter (counter : EventCounter)
  deriving DecidableEq

inductive Operation where
  /-- The state of one coil. -/
  | readCoil (address : UInt16)
  | readCoils (start count : UInt16)
  | readDiscreteInputs (start count : UInt16)
  | readHoldingRegisters (start count : UInt16)
  | readInputRegisters (start count : UInt16)
  | writeCoil (address : UInt16) (state : Bool)
  | writeCoils (start : UInt16) (states : List Bool)
  | writeRegister (address content : UInt16)
  | writeRegisters (start : UInt16) (contents : List UInt16)
  | maskWriteRegister (address andMask orMask : UInt16)
  /-- Writes registers, then reads others, in one exchange. -/
  | readWriteRegisters (readStart readCount writeStart : UInt16) (contents : List UInt16)
  /-- Writes a register of every node; nobody answers. -/
  | broadcastRegister (address content : UInt16)
  | readExceptionStatus
  | fetchEventCounter
  deriving DecidableEq

/-- What an operation puts on the medium. -/
inductive Demand where
  /-- A request to the node, which answers it. -/
  | exchange (request : Request Value)
  /-- A request to every node, which nobody answers. -/
  | broadcast (function : Function) (payload : Bytes)

/-- The first of the states read, which is there when any is. -/
def firstState : List Bool → Except ReplyError Bool
  | state :: _ => .ok state
  | [] => .error (.byteCountMismatch 0 1)

/-- The request for the state of one coil. -/
def Request.readCoil (address : UInt16) : Except InvalidRequest (Request Bool) := do
  let request ← readCoils address 1
  .ok { request with answer := fun data => request.answer data >>= firstState }

/-- The request of an operation, or the first check that its arguments fail. -/
def Operation.demand : Operation → Except InvalidRequest Demand
  | readCoil address =>
      (fun r => .exchange (r.map .bit)) <$> Request.readCoil address
  | readCoils start count =>
      (fun r => .exchange (r.map .bits)) <$> Request.readCoils start count
  | readDiscreteInputs start count =>
      (fun r => .exchange (r.map .bits)) <$> Request.readDiscreteInputs start count
  | readHoldingRegisters start count =>
      (fun r => .exchange (r.map .registers)) <$> Request.readHoldingRegisters start count
  | readInputRegisters start count =>
      (fun r => .exchange (r.map .registers)) <$> Request.readInputRegisters start count
  | writeCoil address state =>
      .ok (.exchange ((Request.writeCoil address state).map fun _ => .nothing))
  | writeCoils start states =>
      (fun r => .exchange (r.map fun _ => .nothing)) <$> Request.writeCoils start states
  | writeRegister address content =>
      .ok (.exchange ((Request.writeRegister address content).map fun _ => .nothing))
  | writeRegisters start contents =>
      (fun r => .exchange (r.map fun _ => .nothing)) <$> Request.writeRegisters start contents
  | maskWriteRegister address andMask orMask =>
      .ok (.exchange ((Request.maskWrite address andMask orMask).map fun _ => .nothing))
  | readWriteRegisters readStart readCount writeStart contents =>
      (fun r => .exchange (r.map .registers)) <$>
        Request.readWriteRegisters readStart readCount writeStart contents
  | broadcastRegister address content =>
      .ok (.broadcast .writeSingleRegister (Request.writeRegister address content).payload)
  | readExceptionStatus => .ok (.exchange (Request.exceptionStatus.map .byte))
  | fetchEventCounter => .ok (.exchange (Request.eventCounter.map .counter))

end ModbusMaster
