import ModbusMaster.AddressRange
import ModbusMaster.Bits
import ModbusMaster.Function

/-!
Typed requests. A request knows its function, its payload, the length of the reply from the
function echo on, and how the data behind the echo answers it. The functions that build requests
check counts and addresses, so a request that exists fits in one frame.
-/

namespace ModbusMaster

/-- The status word and the event count of the communication event counter. -/
structure EventCounter where
  status : UInt16
  eventCount : UInt16
  deriving DecidableEq

/-- A request that is answered by a value of type `α`. -/
structure Request (α : Type) where
  function : Function
  payload : Bytes
  /-- The length of the reply from the function echo on. -/
  replyLength : Nat
  /-- The answer in the data behind the function echo. -/
  answer : Bytes → Except ReplyError α

namespace Request

variable {α β : Type}

protected def map (f : α → β) (request : Request α) : Request β where
  function := request.function
  payload := request.payload
  replyLength := request.replyLength
  answer data := (request.answer data).map f

/-- The answer in a reply, whose first byte has to echo the function. -/
def answerOf (request : Request α) : Bytes → Except ReplyError α
  | [] => .error (.byteCountMismatch 0 request.replyLength)
  | echo :: data =>
      if echo = request.function.code then request.answer data
      else .error (.unexpectedFunction echo request.function.code)

/-- The word at an offset of the data. -/
def wordAt (data : Bytes) (offset : Nat) : Except ReplyError UInt16 :=
  match data.drop offset with
  | high :: low :: _ => .ok (word high low)
  | _ => .error (.byteCountMismatch data.length (offset + 2))

/-- The bytes behind a byte count, which has to be the expected one. -/
def countedBytes (data : Bytes) (expected : Nat) : Except ReplyError Bytes :=
  match data with
  | [] => .error (.byteCountMismatch 0 expected)
  | count :: bytes =>
      if count.toNat = expected ∧ expected ≤ bytes.length then .ok (bytes.take expected)
      else .error (.byteCountMismatch count.toNat expected)

/-- How the state of a coil is written as a word. -/
def coilWord (state : Bool) : UInt16 :=
  if state then 0xFF00 else 0

/-- The state of a coil that a word stands for. -/
def coilState (w : UInt16) : Except ReplyError Bool :=
  if w = 0xFF00 then .ok true
  else if w = 0 then .ok false
  else .error (.unknownCoilState w)

/-- Accepts an echo that is the same as what was written. -/
def echoed [DecidableEq α] (written echo : α) : Except ReplyError Unit :=
  if echo = written then .ok () else .error .replyEchoMismatch

/-! ### Reads -/

/-- Asks for the states of a range of coils or inputs. -/
def bits (function : Function) (range : AddressRange) : Request (List Bool) where
  function := function
  payload := range.encode
  replyLength := 2 + Bits.byteCount range.count.toNat
  answer data := do
    let expected := Bits.byteCount range.count.toNat
    let packed ← countedBytes data expected
    match Bits.unpack? packed range.count.toNat with
    | some states => .ok states
    | none => .error (.byteCountMismatch packed.length expected)

/-- Asks for the contents of a range of registers. -/
def registers (function : Function) (range : AddressRange) : Request (List UInt16) where
  function := function
  payload := range.encode
  replyLength := 2 + 2 * range.count.toNat
  answer data := wordsOf <$> countedBytes data (2 * range.count.toNat)

/-- Asks for the eight exception status outputs. -/
def exceptionStatus : Request UInt8 where
  function := .readExceptionStatus
  payload := []
  replyLength := 2
  answer
    | status :: _ => .ok status
    | [] => .error (.byteCountMismatch 0 1)

/-- Asks for the communication event counter. -/
def eventCounter : Request EventCounter where
  function := .fetchCommEventCounter
  payload := []
  replyLength := 5
  answer data := do
    let status ← wordAt data 0
    let eventCount ← wordAt data 2
    .ok ⟨status, eventCount⟩

/-! ### Writes -/

/-- Sets one coil; the reply repeats address and state. -/
def writeCoil (address : UInt16) (state : Bool) : Request Unit where
  function := .writeSingleCoil
  payload := bigEndian address ++ bigEndian (coilWord state)
  replyLength := 5
  answer data := do
    let echoAddress ← wordAt data 0
    let echoWord ← wordAt data 2
    let echoState ← coilState echoWord
    echoed (address, state) (echoAddress, echoState)

/-- Sets one register; the reply repeats address and content. -/
def writeRegister (address content : UInt16) : Request Unit where
  function := .writeSingleRegister
  payload := bigEndian address ++ bigEndian content
  replyLength := 5
  answer data := do
    let echoAddress ← wordAt data 0
    let echoContent ← wordAt data 2
    echoed (address, content) (echoAddress, echoContent)

/-- Sets a register to `(current and andMask) or (orMask and not andMask)`; the reply repeats
address and masks. -/
def maskWrite (address andMask orMask : UInt16) : Request Unit where
  function := .maskWriteRegister
  payload := bigEndian address ++ bigEndian andMask ++ bigEndian orMask
  replyLength := 7
  answer data := do
    let echoAddress ← wordAt data 0
    let echoAnd ← wordAt data 2
    let echoOr ← wordAt data 4
    echoed (address, andMask, orMask) (echoAddress, echoAnd, echoOr)

/-- The range, byte count and bytes that a multiple write carries. -/
def block (range : AddressRange) (bytes : Bytes) : Bytes :=
  range.encode ++ UInt8.ofNat bytes.length :: bytes

/-- Writes a range of cells; the reply repeats the range. -/
def writeBlock (function : Function) (range : AddressRange) (bytes : Bytes) : Request Unit where
  function := function
  payload := block range bytes
  replyLength := 5
  answer data := do
    let echoStart ← wordAt data 0
    let echoCount ← wordAt data 2
    echoed range ⟨echoStart, echoCount⟩

/-- Writes a range of registers, then asks for the contents of another. -/
def readWrite (read written : AddressRange) (bytes : Bytes) : Request (List UInt16) where
  function := .readWriteMultipleRegisters
  payload := read.encode ++ block written bytes
  replyLength := 2 + 2 * read.count.toNat
  answer data := wordsOf <$> countedBytes data (2 * read.count.toNat)

/-! ### Checked requests -/

/-- A range within the limit of its kind of cell. -/
def rangeFor (limit start count : UInt16) : Except InvalidRequest AddressRange :=
  (AddressRange.limited limit start count).mapError .badRange

/-- The range that so many values from `start` on fill, within the limit of their kind. -/
def rangeOfValues (limit start : UInt16) (values : Nat) : Except InvalidRequest AddressRange :=
  if 65535 < values then .error (.countTooBigForWord values)
  else rangeFor limit start (UInt16.ofNat values)

/-- Bytes whose number fits in the byte that stands before them. -/
def countable (bytes : Bytes) : Except InvalidRequest Bytes :=
  if 255 < bytes.length then .error (.lengthByteOverflow bytes.length) else .ok bytes

def readCoils (start count : UInt16) : Except InvalidRequest (Request (List Bool)) :=
  bits .readCoils <$> rangeFor AddressRange.maxReadBits start count

def readDiscreteInputs (start count : UInt16) : Except InvalidRequest (Request (List Bool)) :=
  bits .readDiscreteInputs <$> rangeFor AddressRange.maxReadBits start count

def readHoldingRegisters (start count : UInt16) :
    Except InvalidRequest (Request (List UInt16)) :=
  registers .readHoldingRegisters <$> rangeFor AddressRange.maxReadRegisters start count

def readInputRegisters (start count : UInt16) :
    Except InvalidRequest (Request (List UInt16)) :=
  registers .readInputRegisters <$> rangeFor AddressRange.maxReadRegisters start count

def writeCoils (start : UInt16) (states : List Bool) : Except InvalidRequest (Request Unit) := do
  let range ← rangeOfValues AddressRange.maxWriteBits start states.length
  let bytes ← countable (Bits.pack states)
  .ok (writeBlock .writeMultipleCoils range bytes)

def writeRegisters (start : UInt16) (contents : List UInt16) :
    Except InvalidRequest (Request Unit) := do
  let range ← rangeOfValues AddressRange.maxWriteRegisters start contents.length
  let bytes ← countable (contents.flatMap bigEndian)
  .ok (writeBlock .writeMultipleRegisters range bytes)

def readWriteRegisters (readStart readCount writeStart : UInt16) (contents : List UInt16) :
    Except InvalidRequest (Request (List UInt16)) := do
  let read ← rangeFor AddressRange.maxReadRegisters readStart readCount
  let written ← rangeOfValues AddressRange.maxWriteRegisters writeStart contents.length
  let bytes ← countable (contents.flatMap bigEndian)
  .ok (readWrite read written bytes)

end Request

end ModbusMaster
