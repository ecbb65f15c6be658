import ModbusMaster.Crc
import ModbusMaster.Error
import ModbusMaster.Function
import ModbusMaster.UnitId

/-!
Frames on the two media. A request for `unit` carries a function byte and a payload; a reply of
known length carries the echo of the function and its data.

* On a serial line a frame is the unit, the function, the payload and the check value.
* On TCP a frame is the unit, four zero bytes, the length of what follows, the unit again, the
  function and the payload.
-/

namespace ModbusMaster

/-- The framing on the medium. -/
inductive Protocol where
  | rtu
  | tcp
  deriving DecidableEq

def Protocol.describe : Protocol → String
  | .rtu => "RTU"
  | .tcp => "TCP"

/-- How strictly the check value of a serial frame is compared. -/
inductive CrcCheck where
  /-- Both bytes have to agree. -/
  | strict
  /-- One of the two bytes has to agree. -/
  | legacy
  deriving DecidableEq

namespace Frame

/-- The length that no frame may exceed. -/
def maxLength : Nat := 512

namespace Rtu

def encode (unit : UnitId) (function : UInt8) (payload : Bytes) : Except InvalidRequest Bytes :=
  let length := payload.length + 4
  if maxLength < length then .error (.frameTooBig length maxLength)
  else
    let body := unit.value :: function :: payload
    .ok (body ++ littleEndian (Crc.of body))

/-- Whether a received check value passes for the calculated one. -/
def accepts (check : CrcCheck) (calculated received : UInt8 × UInt8) : Bool :=
  match check with
  | .strict => calculated.1 == received.1 && calculated.2 == received.2
  | .legacy => calculated.1 == received.1 || calculated.2 == received.2

/-- The two bytes of a check value as they follow the body. -/
def checkBytes (body : Bytes) : UInt8 × UInt8 :=
  let crc := (Crc.of body).toNat
  (UInt8.ofNat (crc % 256), UInt8.ofNat (crc / 256))

/-- The `length` bytes of a reply from the function echo on. The echo decides first whether the
reply is a refusal, which has its own length. Otherwise `length + 3` is taken to be below
`indexLimit`. -/
def decode (raw : Bytes) (length : Nat) (check : CrcCheck) : Except RequestError Bytes :=
  match raw with
  | _ :: echo :: rest =>
      if refuses echo then
        -- the check value of a refusal is not looked at
        match rest with
        | code :: _ => .error (.exception (ExceptionCode.ofByte code))
        | [] => .error (.badFrame (.tooShort 3 raw.length))
      else if maxLength < length + 3 then
        .error (.badFrame (.frameTooBig (length + 3) maxLength))
      else
        let body := raw.take (length + 1)
        match raw.drop (length + 1) with
        | low :: high :: _ =>
            let calculated := checkBytes body
            if accepts check calculated (low, high) then .ok (body.drop 1)
            else
              .error (.badFrame
                (.crcMismatch (word high low) (word calculated.2 calculated.1)))
        | _ => .error (.badFrame (.tooShort (length + 3) raw.length))
  | _ => .error (.badFrame (.tooShort 2 raw.length))

end Rtu

namespace Tcp

/-- The bytes in front of the function. -/
def headerLength : Nat := 7

/-- The shortest reply: header, function echo and one byte. -/
def minReplyLength : Nat := 9

def encode (unit : UnitId) (function : UInt8) (payload : Bytes) : Except InvalidRequest Bytes :=
  let length := payload.length + 1
  if 255 < length + 1 then .error (.lengthByteOverflow length)
  else if maxLength < headerLength + length then
    .error (.frameTooBig (headerLength + length) maxLength)
  else
    .ok ([unit.value, 0, 0, 0, 0, UInt8.ofNat (length + 1), unit.value, function] ++ payload)

/-- The end of the `length` bytes of a reply can be an index. It is not looked for in a reply that
is too short or a refusal. -/
def Indexed (raw : Bytes) (length : Nat) : Prop :=
  minReplyLength ≤ raw.length → refuses (raw.getD headerLength 0) = false →
    headerLength + length < indexLimit

instance (raw : Bytes) (length : Nat) : Decidable (Indexed raw length) :=
  inferInstanceAs (Decidable (_ → _ → _))

/-- The `length` bytes of a reply from the function echo on. They are asked for only where they are
`Indexed`; an exchange that finds they are not panics. -/
def decode (raw : Bytes) (length : Nat) : Except RequestError Bytes :=
  if raw.length < minReplyLength then
    .error (.badFrame (.tooShort minReplyLength raw.length))
  else
    match raw.drop headerLength with
    | echo :: code :: _ =>
        if refuses echo then .error (.exception (ExceptionCode.ofByte code))
        else if raw.length < headerLength + length then
          .error (.badFrame (.tooShort (headerLength + length) raw.length))
        else .ok ((raw.drop headerLength).take length)
    | _ => .error (.badFrame (.tooShort minReplyLength raw.length))

end Tcp

/-- The frame of a request; a frame that would be too long is refused, never cut. -/
def encode (protocol : Protocol) (unit : UnitId) (function : UInt8) (payload : Bytes) :
    Except InvalidRequest Bytes :=
  match protocol with
  | .rtu => Rtu.encode unit function payload
  | .tcp => Tcp.encode unit function payload

/-- The `length` bytes of a reply from the function echo on. TCP frames carry no check value. -/
def decode (protocol : Protocol) (raw : Bytes) (length : Nat) (check : CrcCheck) :
    Except RequestError Bytes :=
  match protocol with
  | .rtu => Rtu.decode raw length check
  | .tcp => Tcp.decode raw length

end Frame

end ModbusMaster
