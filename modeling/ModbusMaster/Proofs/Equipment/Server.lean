import Mathlib.Data.Nat.Bitwise
import ModbusMaster.Frame
import ModbusMaster.Proofs.Equipment.Image

/-!
Reference equipment. It takes the requests out of the frames that reach it, checks them against the
limits of the standard, executes them on its memory and replies in the same framing. It is written
down from the standard, not from the requests of the master.
-/

namespace ModbusMaster

namespace Server

/-- Refuses a number of cells that no request may name, and cells beyond the last address. -/
def checkRange (limit : Nat) (start count : UInt16) : Except ExceptionCode Unit :=
  if count.toNat = 0 ∨ limit < count.toNat then .error .illegalDataValue
  else if 65536 < start.toNat + count.toNat then .error .illegalDataAddress
  else .ok ()

/-- The states of cells eight to a byte, the first one in the lowest place. -/
def packed (memory : Memory Bool) (start : UInt16) (count : Nat) : Bytes :=
  (List.range ((count + 7) / 8)).map fun i =>
    UInt8.ofNat (Nat.ofBits fun place : Fin 8 =>
      decide (8 * i + place < count) && memory (start + UInt16.ofNat (8 * i + place)))

/-- The states in bytes that hold eight each. -/
def states (bytes : Bytes) (count : Nat) : List Bool :=
  (List.range count).map fun i => (bytes.getD (i / 8) 0).toNat.testBit (i % 8)

/-- Functions 1 and 2. -/
def readBits (memory : Memory Bool) : Bytes → Except ExceptionCode Bytes
  | [startHigh, startLow, countHigh, countLow] => do
      let start := word startHigh startLow
      let count := word countHigh countLow
      checkRange 2000 start count
      let bytes := packed memory start count.toNat
      return UInt8.ofNat bytes.length :: bytes
  | _ => .error .illegalDataValue

/-- Functions 3 and 4. -/
def readRegisters (memory : Memory UInt16) : Bytes → Except ExceptionCode Bytes
  | [startHigh, startLow, countHigh, countLow] => do
      let start := word startHigh startLow
      let count := word countHigh countLow
      checkRange 125 start count
      let bytes := (memory.read start count.toNat).flatMap bigEndian
      return UInt8.ofNat bytes.length :: bytes
  | _ => .error .illegalDataValue

/-- Function 5: the word for on is `0xFF00`, the word for off is zero. -/
def writeCoil (image : Image) : Bytes → Except ExceptionCode (Bytes × Image)
  | [addressHigh, addressLow, stateHigh, stateLow] =>
      let address := word addressHigh addressLow
      let reply := [addressHigh, addressLow, stateHigh, stateLow]
      match (word stateHigh stateLow).toNat with
      | 0xFF00 => .ok (reply, { image with coils := image.coils.write address [true] })
      | 0 => .ok (reply, { image with coils := image.coils.write address [false] })
      | _ => .error .illegalDataValue
  | _ => .error .illegalDataValue

/-- Function 6. -/
def writeRegister (image : Image) : Bytes → Except ExceptionCode (Bytes × Image)
  | [addressHigh, addressLow, high, low] =>
      let address := word addressHigh addressLow
      .ok ([addressHigh, addressLow, high, low],
        { image with holding := image.holding.write address [word high low] })
  | _ => .error .illegalDataValue

/-- Function 7. -/
def exceptionStatus (image : Image) : Bytes → Except ExceptionCode Bytes
  | [] => .ok [image.exceptionStatus]
  | _ => .error .illegalDataValue

/-- Function 11. -/
def eventCounter (image : Image) : Bytes → Except ExceptionCode Bytes
  | [] => .ok (bigEndian image.counter.status ++ bigEndian image.counter.eventCount)
  | _ => .error .illegalDataValue

/-- Function 15. -/
def writeCoils (image : Image) : Bytes → Except ExceptionCode (Bytes × Image)
  | startHigh :: startLow :: countHigh :: countLow :: length :: bytes => do
      let start := word startHigh startLow
      let count := word countHigh countLow
      checkRange 1968 start count
      if length.toNat = bytes.length ∧ bytes.length = (count.toNat + 7) / 8 then
        return ([startHigh, startLow, countHigh, countLow],
          { image with coils := image.coils.write start (states bytes count.toNat) })
      else .error .illegalDataValue
  | _ => .error .illegalDataValue

/-- Function 16, and the write of function 23, which has a lower limit. -/
def writeRegisters (limit : Nat) (image : Image) : Bytes → Except ExceptionCode (Bytes × Image)
  | startHigh :: startLow :: countHigh :: countLow :: length :: bytes => do
      let start := word startHigh startLow
      let count := word countHigh countLow
      checkRange limit start count
      if length.toNat = bytes.length ∧ bytes.length = 2 * count.toNat then
        return ([startHigh, startLow, countHigh, countLow],
          { image with holding := image.holding.write start (wordsOf bytes) })
      else .error .illegalDataValue
  | _ => .error .illegalDataValue

/-- Function 22. -/
def maskWrite (image : Image) : Bytes → Except ExceptionCode (Bytes × Image)
  | [addressHigh, addressLow, andHigh, andLow, orHigh, orLow] =>
      let address := word addressHigh addressLow
      let andMask := word andHigh andLow
      let content := (image.holding address &&& andMask) ||| (word orHigh orLow &&& ~~~andMask)
      .ok ([addressHigh, addressLow, andHigh, andLow, orHigh, orLow],
        { image with holding := image.holding.write address [content] })
  | _ => .error .illegalDataValue

/-- Function 23: the write comes first. -/
def readWrite (image : Image) : Bytes → Except ExceptionCode (Bytes × Image)
  | readHigh :: readLow :: countHigh :: countLow :: request => do
      checkRange 125 (word readHigh readLow) (word countHigh countLow)
      let (_, image) ← writeRegisters 121 image request
      let reply ← readRegisters image.holding [readHigh, readLow, countHigh, countLow]
      return (reply, image)
  | _ => .error .illegalDataValue

/-- The data behind the function of a reply, and the memory afterwards. -/
def handle (image : Image) (function : UInt8) (data : Bytes) :
    Except ExceptionCode (Bytes × Image) :=
  match function.toNat with
  | 1 => (readBits image.coils data).map (·, image)
  | 2 => (readBits image.discreteInputs data).map (·, image)
  | 3 => (readRegisters image.holding data).map (·, image)
  | 4 => (readRegisters image.inputs data).map (·, image)
  | 5 => writeCoil image data
  | 6 => writeRegister image data
  | 7 => (exceptionStatus image data).map (·, image)
  | 11 => (eventCounter image data).map (·, image)
  | 15 => writeCoils image data
  | 16 => writeRegisters 123 image data
  | 22 => maskWrite image data
  | 23 => readWrite image data
  | _ => .error .illegalFunction

/-- Executes a request, from its function on: the reply, and the memory afterwards. A request that
is refused changes nothing. -/
def execute (image : Image) : Bytes → Bytes × Image
  | [] => ([], image)
  | function :: data =>
      match handle image function data with
      | .ok (reply, image) => (function :: reply, image)
      | .error code => ([function ||| 0x80, code.toByte], image)

/-- The node and the request, from its function on, in a frame. -/
def request? (protocol : Protocol) (frame : Bytes) : Option (UInt8 × Bytes) :=
  match protocol with
  | .rtu =>
      let body := frame.take (frame.length - 2)
      match body with
      | node :: request =>
          if frame = body ++ littleEndian (Crc.of body) then some (node, request) else none
      | [] => none
  | .tcp =>
      match frame with
      | node :: 0 :: 0 :: 0 :: 0 :: length :: unit :: request =>
          if unit = node ∧ length.toNat = request.length + 1 then some (node, request) else none
      | _ => none

/-- The frame of a reply. -/
def replyFrame (protocol : Protocol) (node : UInt8) (reply : Bytes) : Bytes :=
  match protocol with
  | .rtu => node :: reply ++ littleEndian (Crc.of (node :: reply))
  | .tcp => [node, 0, 0, 0, 0, UInt8.ofNat (reply.length + 1), node] ++ reply

end Server

/-- A node with its memory. -/
structure Equipment where
  node : UInt8
  image : Image

/-- What the equipment sends when a frame has reached it, and the equipment afterwards. It executes
what is addressed to it or to every node, and replies to the former only. -/
def Equipment.receive (equipment : Equipment) (protocol : Protocol) (frame : Bytes) :
    Bytes × Equipment :=
  match Server.request? protocol frame with
  | none => ([], equipment)
  | some (node, request) =>
      if node = 0 then
        ([], { equipment with image := (Server.execute equipment.image request).2 })
      else if node = equipment.node then
        let (reply, image) := Server.execute equipment.image request
        (Server.replyFrame protocol node reply, { equipment with image })
      else ([], equipment)

end ModbusMaster
