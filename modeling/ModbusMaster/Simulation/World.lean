import ModbusMaster.Device
import ModbusMaster.Simulation.Line
import ModbusMaster.Simulation.Network

/-!
The simulated world: serial lines, a network, the transports and caches that are kept outside the
operations, the locks by which operations take turns, and a clock that stands still while anybody
can do anything. The world answers one call at a time, at once or at a later time, or lets the
caller wait; what is to happen later, and who is to go on, are kept in order.
-/

namespace ModbusMaster.Simulation

/-- What only one task at a time may have. -/
inductive Resource where
  | bus (bus : Handle)
  | engine (engine : Handle)
  deriving DecidableEq

/-- A lock is given back to those who wait for it in the order they came. -/
structure Lock where
  holder : Option TaskId := none
  waiting : List TaskId := []
  deriving DecidableEq

namespace Lock

/-- Takes the lock if it is free or was handed over to the task, else lets the task wait. -/
def acquire (lock : Lock) (task : TaskId) : Bool × Lock :=
  match lock.holder with
  | none => (true, { lock with holder := some task })
  | some holder =>
      if holder = task then (true, lock)
      else (false, { lock with waiting := lock.waiting ++ [task] })

/-- Hands the lock to the next task; also which one that is. -/
def release (lock : Lock) : Option TaskId × Lock :=
  match lock.waiting with
  | [] => (none, {})
  | next :: rest => (some next, ⟨some next, rest⟩)

end Lock

/-- A cache as the device and the polling task share it. -/
structure Cache where
  store : CacheStore := []
  commands : List Command := []
  /-- Whether the polling task still takes commands. -/
  isOpen : Bool := true
  /-- The task that waits for a command. -/
  receiver : Option TaskId := none
  /-- The tasks that wait to send one. -/
  senders : List TaskId := []

/-- How many commands can be under way. -/
def Cache.capacity : Nat := 8

/-- What the world is told, for people to read. -/
inductive Output where
  | reported (event : Event)
  | printed (line : String)
  deriving DecidableEq

def Output.event? : Output → Option Event
  | reported event => some event
  | printed _ => none

/-- What was seen on one of the lines. -/
structure LineRecord where
  line : Handle
  time : Instant
  event : LineEvent
  deriving DecidableEq

/-- What can happen in the world by itself. -/
inductive Job where
  /-- A task goes on. -/
  | goOn (task : TaskId)
  /-- Bytes set out on a line; they arrive at some time. -/
  | setOut (arrival : Instant) (line : Handle) (bytes : Bytes)
  | arrive (line : Handle) (bytes : Bytes)
  deriving DecidableEq

structure World where
  clock : Instant := 0
  lines : List Line := []
  network : Network := {}
  transports : List Transport := []
  locks : List (Resource × Lock) := []
  caches : List Cache := []
  /-- The serial ports that can be opened. -/
  ports : List (String × Handle) := []
  /-- The files that cannot be written. -/
  unwritable : List String := []
  /-- The polling tasks that were started and do not run yet. -/
  started : List PollTask := []
  /-- What happens next, in this order. -/
  jobs : List Job := []
  /-- What happens later, each at its time, in the order in which it was planned. -/
  timers : List (Instant × Job) := []
  /-- What was seen on the lines, the newest first. -/
  lineRecords : List LineRecord := []
  /-- What the world was told, the newest first. -/
  output : List Output := []
  /-- The lines of the log, the newest first. -/
  log : List String := []

/-- The world's answer to a call. -/
inductive Response (call : Call) where
  | now (answer : call.Answer) (world : World)
  /-- The answer comes at some time, when nobody else can go on. -/
  | later (time : Instant) (answer : call.Answer) (world : World)
  /-- The caller asks again when it is woken, or at some time. -/
  | wait (wake : Option Instant) (world : World)

/-- The first whole millisecond that is not before an instant; clocks wake nobody in between. -/
def wakeTime (instant : Instant) : Instant :=
  Duration.ofMillis ((instant + 999999) / 1000000)

/-- The longest that a task can be put off for a length of time: thirty years. There is no limit
to waiting for an instant. -/
def longestPause : Duration := .ofSeconds (30 * 365 * 86400)

/-- The instant until which a task is put off for a length of time. -/
def pauseEnd (start : Instant) (duration : Duration) : Instant :=
  start + min duration longestPause

instance : Inhabited Transport := ⟨.rtu { line := 0, bus := 0, options := {} }⟩

namespace World

def line (world : World) (handle : Handle) : Line :=
  world.lines.getD handle {}

def setLine (world : World) (handle : Handle) (line : Line) : World :=
  { world with lines := world.lines.set handle line }

def transport (world : World) (engine : Handle) : Transport :=
  world.transports.getD engine default

def cache (world : World) (handle : Handle) : Cache :=
  world.caches.getD handle {}

def setCache (world : World) (handle : Handle) (cache : Cache) : World :=
  { world with caches := world.caches.set handle cache }

def see (world : World) (record : LineRecord) : World :=
  { world with lineRecords := record :: world.lineRecords }

/-- Lets tasks go on, after all that was to happen before; a task goes on once only. -/
def wakeAll (world : World) (tasks : List TaskId) : World :=
  let woken := (tasks.map Job.goOn).filter fun job => !world.jobs.contains job
  { world with jobs := world.jobs ++ woken }

def wake (world : World) (task : TaskId) : World :=
  world.wakeAll [task]

/-- Plans something for a time. -/
def plan (world : World) (time : Instant) (job : Job) : World :=
  { world with timers := world.timers ++ [(wakeTime time, job)] }

/-- Lets a task be woken by nothing but what wakes it from now on. -/
def forget (world : World) (task : TaskId) : World :=
  { world with timers := world.timers.filter fun timer => timer.2 ≠ .goOn task }

def lock (world : World) (resource : Resource) : Lock :=
  (world.locks.lookup resource).getD {}

def setLock (world : World) (resource : Resource) (lock : Lock) : World :=
  { world with locks := (resource, lock) :: world.locks.filter fun entry => entry.1 ≠ resource }

def acquire (world : World) (resource : Resource) (task : TaskId) : Bool × World :=
  let (granted, lock) := (world.lock resource).acquire task
  (granted, world.setLock resource lock)

def release (world : World) (resource : Resource) : World :=
  let (next, lock) := (world.lock resource).release
  (world.setLock resource lock).wakeAll next.toList

/-- Lets bytes arrive on a line, and the task that waits for some go on. -/
def arrive (world : World) (handle : Handle) (bytes : Bytes) : World :=
  let line := world.line handle
  if bytes = [] then world
  else
    (world.setLine handle { line with
      incoming := line.incoming.arrive bytes, reader := none }).wakeAll line.reader.toList

/-- Answers a write; what the equipment sends later sets out. -/
def writeLine (world : World) (handle : Handle) (bytes : Bytes) :
    Response (.write handle bytes) :=
  let written := (world.line handle).write bytes
  let setOut := written.parts.map fun part =>
    Job.setOut (pauseEnd world.clock part.1) handle part.2
  let world := (world.setLine handle written.line).see
    ⟨handle, world.clock, .written bytes written.failed⟩
  .now written.result { world with jobs := world.jobs ++ setOut }

/-- Answers a read. -/
def readLine (world : World) (task : TaskId) (handle : Handle) (count : Nat) :
    Response (.read handle count) :=
  let (outcome?, line) := (world.line handle).read world.clock count
  match outcome? with
  | some outcome =>
      .now outcome ((world.setLine handle line).see
        ⟨handle, world.clock, .read count outcome.toOption⟩)
  | none =>
      .wait (line.reading.map (·.deadline)) (world.setLine handle { line with reader := some task })

/-- Nobody takes commands of a cache any more. -/
def closeCache (world : World) (handle : Handle) : World :=
  let cache := world.cache handle
  (world.setCache handle { cache with isOpen := false, senders := [] }).wakeAll cache.senders

/-- Answers the sending of a command. -/
def sendCommand (world : World) (task : TaskId) (handle : Handle) (command : Command) :
    Response (.command handle command) :=
  let cache := world.cache handle
  if !cache.isOpen then .now false world
  else if cache.commands.length < Cache.capacity then
    let sent := { cache with commands := cache.commands ++ [command], receiver := none }
    .now true ((world.setCache handle sent).wakeAll cache.receiver.toList)
  else .wait none (world.setCache handle { cache with senders := cache.senders ++ [task] })

/-- Answers the waiting for a command or a deadline. -/
def awaitCommand (world : World) (task : TaskId) (handle : Handle) (deadline : Option Instant) :
    Response (.await handle deadline) :=
  let cache := world.cache handle
  match cache.commands with
  | command :: rest =>
      let taken := { cache with
        commands := rest, receiver := none, senders := cache.senders.tail }
      .now (.command command)
        ((world.setCache handle taken).wakeAll (cache.senders.take 1))
  | [] =>
      if deadline.any (· ≤ world.clock) then
        .now .due (world.setCache handle { cache with receiver := none })
      else
        .wait deadline (world.setCache handle { cache with receiver := some task })

/-- Answers an attempt to connect. A connection takes no time, but others go on before it is
there. -/
def openConnection (world : World) (settings : Tcp.Settings) (host : Host) :
    Response (.connect settings host) :=
  match world.network.reach host settings.port with
  | .unreachable => .now (.error (.failed .networkUnreachable)) world
  | .refusing => .now (.error (.failed .connectionRefused)) world
  | .blackhole => .later (pauseEnd world.clock settings.connectTimeout) (.error .elapsed) world
  | .accepting =>
      let (stream, network) := world.network.accept
      .later world.clock (.ok stream) { world with network }

/-- Answers an attempt to receive bytes. -/
def receiveBytes (world : World) (stream : Handle) (count : Nat) (limit : Duration) :
    Response (.receive stream count limit) :=
  match world.network.receive? stream count with
  | (some result, network) => .now (result.mapError .failed) { world with network }
  | (none, network) =>
      .later (pauseEnd world.clock limit) (.error .elapsed) { world with network }

/-- Lets a task wait for an instant. -/
def waitUntil {call : Call} (world : World) (instant : Instant) (answer : call.Answer) :
    Response call :=
  if instant ≤ world.clock then .now answer world else .later instant answer world

/-- Answers a call of a task; the task says whether the server is to answer its requests. -/
def answer (world : World) (task : TaskId) (expectsAnswer : Bool) :
    (call : Call) → Response call
  | .acquireBus bus =>
      match world.acquire (.bus bus) task with
      | (true, world) => .now () world
      | (false, world) => .wait none world
  | .releaseBus bus => .now () (world.release (.bus bus))
  | .flush handle =>
      let (result, line) := (world.line handle).flush
      let failed := !result.isOk
      .now result ((world.setLine handle line).see ⟨handle, world.clock, .flushed failed⟩)
  | .write handle bytes => world.writeLine handle bytes
  | .read handle count => world.readLine task handle count
  | .connect settings host => world.openConnection settings host
  | .transmit stream bytes _ =>
      let (result, network) := world.network.transmit stream bytes expectsAnswer
      .now (result.mapError .failed) { world with network }
  | .receive stream count limit => world.receiveBytes stream count limit
  | .close stream => .now () { world with network := world.network.close stream }
  | .acquireTransport engine =>
      match world.acquire (.engine engine) task with
      | (true, world) => .now (world.transport engine) world
      | (false, world) => .wait none world
  | .releaseTransport engine transport =>
      let kept := { world with transports := world.transports.set engine transport }
      .now () (kept.release (.engine engine))
  | .now => .now world.clock world
  | .sleep duration => world.waitUntil (pauseEnd world.clock duration) ()
  | .sleepUntil instant => world.waitUntil instant ()
  | .entries handle => .now (world.cache handle).store world
  | .publish handle index snapshot =>
      let cache := world.cache handle
      .now () (world.setCache handle { cache with store := cache.store.publish index snapshot })
  | .command handle command => world.sendCommand task handle command
  | .await handle deadline => world.awaitCommand task handle deadline
  | .openPort path settings =>
      match world.ports.lookup path with
      | none => .now (.error "No such file or directory") world
      | some handle =>
          let line := { world.line handle with timeout := settings.timeout }
          .now (.ok handle) (world.setLine handle line)
  | .newEngine transport =>
      .now world.transports.length
        { world with transports := world.transports ++ [transport] }
  | .newCache blocks =>
      .now world.caches.length
        { world with caches := world.caches ++ [{ store := .ofBlocks blocks }] }
  | .startPolling poll => .now () { world with started := world.started ++ [poll] }
  | .report event => .now () { world with output := .reported event :: world.output }
  | .appendLog path entry =>
      if world.unwritable.contains path then
        .now (some "No such file or directory (os error 2)") world
      else .now none { world with log := (entry.lines "TIME").reverse ++ world.log }
  | .print line => .now () { world with output := .printed line :: world.output }
  | .panic _ => .wait none world

end World

end ModbusMaster.Simulation
