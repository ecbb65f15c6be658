import ModbusMaster.IoError
import ModbusMaster.Serial.Incoming

/-!
A simulated serial line with scripted equipment at its far end. The script is a list of exchanges;
every flush starts the next one, and when none is left nothing happens any more. What the
equipment sends later than at once is handed to the world, which lets it arrive.
-/

namespace ModbusMaster.Simulation

/-- The names of those who make calls. -/
abbrev TaskId := Nat

/-- What happens on the line from one flush to the next. -/
structure Exchange where
  /-- Bytes that wait on the line before the flush. -/
  stale : Bytes := []
  flushError : Option IoError := none
  writeError : Option IoError := none
  readError : Option IoError := none
  /-- Which read fails, the first one being 1. -/
  readErrorAt : Nat := 1
  /-- Bytes that arrive right after the write; no bytes at all are a reply, too. -/
  reply : Option Bytes := none
  /-- Bytes that arrive later, each with its delay. -/
  parts : List (Duration × Bytes) := []
  /-- Whether the far end closes right after its reply; parts that are under way are lost. -/
  hangUp : Bool := false
  deriving DecidableEq

/-- Whether an exchange leaves the reply to the equipment's own answers. -/
def Exchange.isSilent (exchange : Exchange) : Bool :=
  exchange.reply.isNone && exchange.parts.isEmpty && !exchange.hangUp

structure Line where
  timeout : Duration := .ofSeconds 1
  script : List Exchange := []
  /-- Replies to given frames, when the script does not say otherwise. -/
  answers : List (Bytes × Bytes) := []
  current : Exchange := {}
  incoming : Serial.Incoming := {}
  /-- How many reads were started since the last flush. -/
  reads : Nat := 0
  /-- The read that is under way. -/
  reading : Option Serial.Reading := none
  /-- The task that waits for bytes. -/
  reader : Option TaskId := none
  deriving DecidableEq

/-- What was seen on a line. -/
inductive LineEvent where
  | flushed (failed : Bool)
  /-- `failed` when the script made the write fail. -/
  | written (bytes : Bytes) (failed : Bool)
  /-- No bytes at all when the script made the read fail. -/
  | read (count : Nat) (got : Option Bytes)
  deriving DecidableEq

/-- What comes of a write. -/
structure Written where
  result : Except IoError Unit
  /-- Whether the script made it fail. -/
  failed : Bool := false
  /-- Bytes that are still to arrive, each with its delay. -/
  parts : List (Duration × Bytes) := []
  line : Line

namespace Line

/-- Starts the next exchange and drops what waits on the line. -/
def flush (line : Line) : Except IoError Unit × Line :=
  let next := line.script.headD {}
  let incoming := line.incoming.arrive next.stale
  let line := { line with script := line.script.tail, current := next, incoming, reads := 0 }
  match next.flushError with
  | some kind => (.error kind, line)
  | none => (.ok (), { line with incoming := line.incoming.flush })

/-- What the equipment makes of a frame. Parts without a delay arrive at once. -/
def respond (line : Line) (frame : Bytes) : Written :=
  let exchange := line.current
  let reply :=
    if exchange.isSilent then (line.answers.lookup frame).getD [] else exchange.reply.getD []
  let (atOnce, later) := exchange.parts.partition (·.1 = 0)
  let arrived := atOnce.foldl (fun incoming part => incoming.arrive part.2)
    (line.incoming.arrive reply)
  { result := .ok ()
    parts := later
    line := { line with
      incoming := { arrived with hungUp := arrived.hungUp || exchange.hangUp } } }

/-- Writes a frame. Nothing can be written once the far end has hung up. -/
def write (line : Line) (frame : Bytes) : Written :=
  match line.current.writeError with
  | some kind => { result := .error kind, failed := true, line }
  | none =>
      if line.incoming.hungUp then { result := .error .brokenPipe, line }
      else line.respond frame

/-- How the script makes the latest read fail, if it does. -/
def readFailure? (line : Line) : Option IoError :=
  if line.reads = line.current.readErrorAt then line.current.readError else none

/-- Goes on with a read; its outcome, if it ends now. -/
def proceed (line : Line) (now : Instant) (reading : Serial.Reading) :
    Option (Except IoError Bytes) × Line :=
  let (reading, incoming) := reading.take line.incoming
  if reading.isOver incoming now then
    (some (.ok reading.got), { line with incoming, reading := none, reader := none })
  else (none, { line with incoming, reading := some reading })

/-- Starts a read of up to `count` bytes, or goes on with the one that is under way; its outcome,
if it ends now. -/
def read (line : Line) (now : Instant) (count : Nat) : Option (Except IoError Bytes) × Line :=
  match line.reading with
  | some reading => line.proceed now reading
  | none =>
      let line := { line with reads := line.reads + 1 }
      match line.readFailure? with
      | some kind => (some (.error kind), line)
      | none => line.proceed now (.start now line.timeout count)

end Line

end ModbusMaster.Simulation
