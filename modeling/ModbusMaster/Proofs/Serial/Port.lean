import ModbusMaster.Proofs.Action.Environment
import ModbusMaster.Proofs.Serial.Reception
import ModbusMaster.Serial.Exchange

/-!
A serial port with anything at its far end. What comes in from one flush to the next, and when, is
an `Episode`; the port goes through a script of them. Time passes while reads wait for bytes, and
the port keeps a record of what was written, read and logged.
-/

namespace ModbusMaster.Serial

/-- What happens on the line from one flush to the next. -/
structure Episode where
  /-- Comes in before the flush, apart from what an earlier episode has left. -/
  stale : Bytes := []
  writeError : Option IoError := none
  /-- Is in by the end of the write. -/
  prompt : Bytes := []
  /-- Comes in after the write, each part so long after the one before. -/
  parts : List (Duration × Bytes) := []
  /-- How long after the last part the far end hangs up. -/
  hangUp : Option Duration := none
  /-- The errors that the reads end in, one after the other. -/
  readErrors : List (Option IoError) := []
  deriving DecidableEq

structure Port where
  /-- How long a read waits. -/
  timeout : Duration
  clock : Instant := 0
  /-- Is in and was not read. -/
  waiting : Bytes := []
  /-- Is to come in. -/
  arrivals : List (Instant × Bytes) := []
  hangUp : Option Instant := none
  current : Episode := {}
  script : List Episode := []
  /-- The frames that were written. -/
  written : List Bytes := []
  /-- How many bytes each read asked for, and what it got. -/
  reads : List (Nat × Bytes) := []
  log : List (Instant × LogEntry) := []
  deriving DecidableEq

namespace Port

/-- What the next flush begins. -/
def next (port : Port) : Episode :=
  port.script.headD {}

/-- Begins an episode and drops all that is there by now. Parts of the last episode that no read
has waited for are there, too. -/
def flush (port : Port) : Port :=
  let backlog := port.waiting ++ port.arrivals.flatMap (·.2) ++ port.next.stale
  { port with
    waiting := (Incoming.flush { waiting := backlog }).waiting
    arrivals := []
    hangUp := none
    current := { port.next with stale := [] }
    script := port.script.tail }

/-- The port when a frame was written, whether or not the write failed. -/
def sent (port : Port) (frame : Bytes) : Port :=
  let arrivals := timed port.clock port.current.parts
  { port with
    waiting := port.waiting ++ port.current.prompt
    arrivals
    hangUp := port.current.hangUp.map fun gap => arrivals.getLast?.elim port.clock (·.1) + gap
    written := port.written ++ [frame] }

def write (port : Port) (frame : Bytes) : Except IoError Unit × Port :=
  match port.current.writeError with
  | some kind => (.error kind, port.sent frame)
  | none => (.ok (), port.sent frame)

/-- Reads up to `count` bytes, unless the read fails. -/
def read (port : Port) (count : Nat) : Except IoError Bytes × Port :=
  let started := { port with
    current := { port.current with readErrors := port.current.readErrors.tail } }
  match port.current.readErrors.headD none with
  | some kind => (.error kind, { started with reads := port.reads ++ [(count, [])] })
  | none =>
      let ending := Reading.follow port.hangUp port.clock
        (.start port.clock port.timeout count) { waiting := port.waiting } port.arrivals
      (.ok ending.bytes, { started with
        clock := ending.finished
        waiting := ending.rest.waiting
        arrivals := ending.arrivals
        reads := port.reads ++ [(count, ending.bytes)] })

/-- The answer to a call, and the port afterwards. -/
def answer : (call : Call) → Port → call.Answer × Port
  | .flush _, port => (.ok (), port.flush)
  | .write _ frame, port => port.write frame
  | .read _ count, port => port.read count
  | .appendLog _ entry, port => (none, { port with log := port.log ++ [(port.clock, entry)] })
  | call, port => (call.idle, port)

/-- What is in or comes in and was not read. -/
def unread (port : Port) : Bytes :=
  port.waiting ++ port.arrivals.flatMap (·.2)

/-- All that comes in before the deadline of a read that starts now. -/
def early (port : Port) : Bytes :=
  port.waiting ++ before (port.clock + port.timeout) port.arrivals

/-- All that comes in before the deadlines of the reads. When two bytes are in, there is another
read, which starts then. -/
def heard (port : Port) : Bytes :=
  if port.early.length < 2 then port.early
  else
    let second := whenIn 2 port.clock port.waiting port.arrivals
    port.waiting ++ before (second + port.timeout) port.arrivals

variable {port : Port}

theorem waiting_flush : port.flush.waiting = [] :=
  congrArg Incoming.waiting (Incoming.flush_eq _)

theorem flatMap_timed (start : Instant) (parts : List (Duration × Bytes)) :
    (timed start parts).flatMap (·.2) = parts.flatMap (·.2) := by
  induction parts generalizing start with
  | nil => rfl
  | cons part later ih => rw [timed, List.flatMap_cons, List.flatMap_cons, ih]

theorem unread_sent_flush (frame : Bytes) :
    (port.flush.sent frame).unread = port.next.prompt ++ port.next.parts.flatMap (·.2) := by
  show port.flush.waiting ++ _ ++ List.flatMap _ (timed _ _) = _
  rw [waiting_flush, flatMap_timed]
  rfl

/-! ### Single calls -/

@[simp] theorem run_acquireBus (bus : Handle) :
    (Action.acquireBus bus).run answer port = ((), port) := rfl

@[simp] theorem run_releaseBus (bus : Handle) :
    (Action.releaseBus bus).run answer port = ((), port) := rfl

@[simp] theorem run_flush (line : Handle) :
    (Action.flush line).run answer port = (.ok (), port.flush) := rfl

@[simp] theorem run_write (line : Handle) (frame : Bytes) :
    (Action.write line frame).run answer port = port.write frame := rfl

@[simp] theorem run_read (line : Handle) (count : Nat) :
    (Action.read line count).run answer port = port.read count := rfl

@[simp] theorem run_report (event : Event) :
    (Action.report event).run answer port = ((), port) := rfl

end Port

namespace Transport

variable {transport : Transport} {port : Port} {direction : Direction} {bytes : Bytes}

@[simp] theorem run_reportFrame_port :
    (transport.reportFrame direction bytes).run Port.answer port = ((), port) := by
  unfold reportFrame
  dsimp only
  split <;> rfl

@[simp] theorem run_reportBytes_port :
    (transport.reportBytes direction bytes).run Port.answer port = ((), port) := by
  unfold reportBytes
  dsimp only
  split <;> rfl

end Transport

end ModbusMaster.Serial
