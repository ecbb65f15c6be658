import ModbusMaster.Cache.Block
import ModbusMaster.Frame

/-!
What the master reports about its work. Every report is an event with a level and a text; how
much is reported about frames and bytes is a setting.
-/

namespace ModbusMaster

/-- How much is reported about complete frames. -/
inductive FrameLevel where
  | nothing
  | header
  | payload
  deriving DecidableEq

/-- How much is reported about the bytes on the medium. -/
inductive ByteLevel where
  | nothing
  | length
  | data
  deriving DecidableEq

structure DecodeLevel where
  frame : FrameLevel
  physical : ByteLevel
  deriving DecidableEq

namespace DecodeLevel

def nothing : DecodeLevel := ⟨.nothing, .nothing⟩

/-- Frames at a level, bytes not at all. -/
def ofFrame (frame : FrameLevel) : DecodeLevel := ⟨frame, .nothing⟩

end DecodeLevel

inductive Severity where
  | debug
  | info
  | warn
  deriving DecidableEq

def Severity.name : Severity → String
  | .debug => "DEBUG"
  | .info => "INFO"
  | .warn => "WARN"

/-- Which way bytes travel, seen from the master. -/
inductive Direction where
  | sent
  | received
  deriving DecidableEq

def Direction.mark : Direction → String
  | .sent => "TX"
  | .received => "RX"

namespace Trace

/-- Lines of hexadecimal bytes, eighteen to a line, each on a new line. -/
def dump (bytes : Bytes) : String :=
  String.join ((chunks 18 bytes).map fun line => "\n" ++ Hex.spaced line)

/-- The header of a frame in words. -/
def header (protocol : Protocol) (frame : Bytes) : String :=
  match protocol, frame with
  | .rtu, unit :: function :: _ =>
      "dest: " ++ Hex.byteLiteral unit ++ " fc: " ++ describeFunction function
        ++ s!" (len = {frame.length})"
  | .tcp, _ :: _ :: _ :: _ :: _ :: length :: unit :: function :: _ =>
      "dest: " ++ Hex.byteLiteral unit ++ s!" len: {length.toNat} fc: "
        ++ describeFunction function
  | _, _ => s!"(len = {frame.length})"

/-- A frame at a level. -/
def frame (level : FrameLevel) (protocol : Protocol) (bytes : Bytes) : String :=
  if level = .payload then header protocol bytes ++ dump bytes else header protocol bytes

/-- Bytes at a level. -/
def bytes (level : ByteLevel) (data : Bytes) : String :=
  if level = .data then s!"{data.length} bytes" ++ dump data else s!"{data.length} bytes"

end Trace

inductive Event where
  | frame (direction : Direction) (level : FrameLevel) (protocol : Protocol) (bytes : Bytes)
  | bytes (direction : Direction) (level : ByteLevel) (data : Bytes)
  | missingCharacters (expected received : Nat)
  | logNotWritten (path reason : String)
  | rateLimited (peer : String)
  | connected (peer : String)
  | notConnected (peer : String) (error : RequestError)
  | disconnected (peer : String)
  | closedByPeer
  | attemptFailed (error : RequestError) (left : Nat)
  | servedFromCache (function : CacheFunction) (range : AddressRange)
  | pollingStarted (blocks : Nat)
  | pollingPaused
  | pollingResumed
  | pollingStopped
  | pollFailed (block : CacheBlock) (error : RequestError)
  | portOpened (path : String) (baudRate : Nat)
  | deviceBuilt (unit : UnitId) (protocol : Protocol) (blocks : Nat)
  /-- A text that the program that uses the library reports itself. -/
  | note (text : String)
  /-- A failure that the program that uses the library reports itself. -/
  | failure (text : String)
  deriving DecidableEq

namespace Event

def severity : Event → Severity
  | rateLimited _ | servedFromCache .. => .debug
  | missingCharacters .. | logNotWritten .. | notConnected .. | closedByPeer | attemptFailed ..
  | pollFailed .. | failure _ => .warn
  | _ => .info

def text : Event → String
  | frame direction level protocol content =>
      protocol.describe ++ " " ++ direction.mark ++ " - " ++ Trace.frame level protocol content
  | bytes direction level data =>
      "PHYS " ++ direction.mark ++ " - " ++ Trace.bytes level data
  | missingCharacters expected received =>
      s!"missing characters: expected {expected} received {received}"
  | logNotWritten path reason => s!"unable to write diagnostic log {path}: {reason}"
  | rateLimited peer => s!"connection attempt to {peer} refused by rate limit"
  | connected peer => s!"connected to: {peer}"
  | notConnected peer error => s!"error connecting to {peer}: {error.message}"
  | disconnected peer => s!"disconnected from: {peer}"
  | closedByPeer => "connection closed by peer, retrying once"
  | attemptFailed error left => error.message ++ s!", {left} attempt(s) left"
  | servedFromCache function range =>
      function.name ++ " " ++ range.describe ++ " served from cache"
  | pollingStarted blocks => s!"polling {blocks} block(s)"
  | pollingPaused => "polling paused"
  | pollingResumed => "polling resumed"
  | pollingStopped => "polling stopped"
  | pollFailed block error =>
      "unable to poll " ++ block.function.name ++ " " ++ block.range.describe ++ ": "
        ++ error.message
  | portOpened path baudRate => s!"serial port {path} open at {baudRate} baud"
  | deviceBuilt unit protocol blocks =>
      s!"node {unit.value.toNat} over " ++ protocol.describe ++ s!" with {blocks} cache block(s)"
  | note text => text
  | failure text => text

/-- A report as one entry: level and text. -/
def line (event : Event) : String :=
  event.severity.name ++ " " ++ event.text

end Event

end ModbusMaster
