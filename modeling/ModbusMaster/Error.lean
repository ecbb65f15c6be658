import ModbusMaster.Exception
import ModbusMaster.IoError
import ModbusMaster.Text.Hex

/-!
Everything that can go wrong with a request, as causes; each cause has one wording. Errors fall
into classes, and only transport and protocol failures are worth another attempt.
-/

namespace ModbusMaster

/-- Why a start and a count do not name a range. -/
inductive InvalidRange where
  | countOfZero
  | addressOverflow (start count : UInt16)
  | countTooLargeForType (count limit : UInt16)
  deriving DecidableEq

def InvalidRange.message : InvalidRange → String
  | .countOfZero => "range contains count == 0"
  | .addressOverflow start count =>
      s!"start == {start.toNat} and count = {count.toNat} would overflow u16 representation"
  | .countTooLargeForType count limit =>
      s!"count of {count.toNat} is too large for the specified type (max == {limit.toNat})"

/-- Why a request is refused before anything reaches the medium. -/
inductive InvalidRequest where
  | badRange (range : InvalidRange)
  | countTooBigForWord (count : Nat)
  | frameTooBig (length limit : Nat)
  | lengthByteOverflow (length : Nat)
  deriving DecidableEq

def InvalidRequest.message : InvalidRequest → String
  | .badRange range => range.message
  | .countTooBigForWord count => s!"count of {count} is too big to fit in a u16"
  | .frameTooBig length limit =>
      s!"frame length of {length} exceeds the maximum allowed length of {limit}"
  | .lengthByteOverflow length => s!"length of {length} does not fit in a single length byte"

/-- Why received bytes are not a frame. -/
inductive FrameError where
  | crcMismatch (received expected : UInt16)
  | tooShort (expected actual : Nat)
  | frameTooBig (length limit : Nat)
  deriving DecidableEq

def FrameError.message : FrameError → String
  | .crcMismatch received expected =>
      "received crc " ++ Hex.wordLiteral received ++ " does not match calculated crc "
        ++ Hex.wordLiteral expected
  | .tooShort expected actual => s!"received {actual} bytes, expected at least {expected}"
  | .frameTooBig length limit =>
      s!"frame length of {length} exceeds the maximum allowed length of {limit}"

/-- Why the content of a frame does not answer the request. -/
inductive ReplyError where
  | unexpectedFunction (echo function : UInt8)
  | byteCountMismatch (actual expected : Nat)
  | replyEchoMismatch
  | unknownCoilState (state : UInt16)
  deriving DecidableEq

def ReplyError.message : ReplyError → String
  | .unexpectedFunction echo function =>
      "response function code " ++ Hex.byteLiteral echo ++ " does not match request "
        ++ Hex.byteLiteral function
  | .byteCountMismatch actual expected =>
      s!"byte count {actual} does not match the expected count of {expected}"
  | .replyEchoMismatch => "reply does not contain the same value that was written"
  | .unknownCoilState state =>
      "received coil state with unspecified value: " ++ Hex.wordLiteral state

/-- Why an operation failed. -/
inductive RequestError where
  /-- The medium failed. -/
  | io (kind : IoError)
  /-- The equipment refused the request. -/
  | exception (code : ExceptionCode)
  /-- The request was refused before anything reached the medium. -/
  | badRequest (cause : InvalidRequest)
  /-- What came back is not a frame. -/
  | badFrame (cause : FrameError)
  /-- What came back does not answer the request. -/
  | badResponse (cause : ReplyError)
  /-- Nothing came back in time. -/
  | responseTimeout
  /-- There is no connection and none could be opened. -/
  | noConnection
  /-- The task that would serve the request has ended. -/
  | shutdown
  deriving DecidableEq

/-- What an error says about the chance of another attempt. -/
inductive ErrorClass where
  | transport
  | protocol
  | exception
  | request
  | shutdown
  deriving DecidableEq

def ErrorClass.name : ErrorClass → String
  | .transport => "Transport"
  | .protocol => "Protocol"
  | .exception => "Exception"
  | .request => "Request"
  | .shutdown => "Shutdown"

namespace RequestError

/-- A failure of the medium; one that timed out means that no response came. -/
def ofIo : IoError → RequestError
  | .timedOut => responseTimeout
  | kind => io kind

def message : RequestError → String
  | io kind => "i/o error: " ++ kind.message
  | exception code => "modbus exception: " ++ code.message
  | badRequest cause => "invalid request: " ++ cause.message
  | badFrame cause => "bad frame: " ++ cause.message
  | badResponse cause => "bad response: " ++ cause.message
  | responseTimeout => "timeout occurred before receiving a response from the equipment"
  | noConnection => "no connection exists to the equipment"
  | shutdown => "the task processing requests has shut down"

def errorClass : RequestError → ErrorClass
  | io _ | responseTimeout | noConnection => .transport
  | badFrame _ | badResponse _ => .protocol
  | exception _ => .exception
  | badRequest _ => .request
  | shutdown => .shutdown

/-- What an operator can do about it; only the equipment's own refusals carry a hint. -/
def hint? : RequestError → Option String
  | exception code => some code.hint
  | _ => none

end RequestError

end ModbusMaster
