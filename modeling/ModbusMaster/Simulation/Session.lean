import ModbusMaster.Simulation.Bench

/-!
Sessions: a device in a simulated world, and a list of things that are done to it one after the
other. Every step ends with a look at the device, and tells what has happened in the world since
the step before.
-/

namespace ModbusMaster.Simulation

/-- One thing that is done in a session. -/
inductive Instruction where
  | connect
  | disconnect
  /-- The fixed text that shows a serial transport. -/
  | describe
  /-- Without a node the request goes to the node of the device. -/
  | send (unit : Option UnitId) (function : UInt8) (payload : Bytes)
  | exchange (unit : Option UnitId) (function : UInt8) (payload : Bytes) (length : Nat)
  | operation (task : Operation)
  | command (order : Command)
  | isCached (function : CacheFunction) (start count : UInt16)
  | blockCount
  | wait (duration : Duration)
  /-- Something happens to the server. -/
  | server (event : ServerEvent)
  deriving DecidableEq

/-- What comes back from an instruction. -/
inductive Reply where
  | value (value : Value)
  | bytes (bytes : Bytes)
  | flag (flag : Bool)
  | number (number : Nat)
  | text (text : String)
  deriving DecidableEq

namespace Instruction

/-- Whether the server is to answer the request. -/
def expectsAnswer : Instruction → Bool
  | send .. | operation (.broadcastRegister ..) => false
  | _ => true

/-- The time that a polling task is given to obey a command. -/
def reactionTime : Duration := Duration.ofMillis 1

/-- What an instruction makes a device do. -/
def perform (device : Device) : Instruction → Action (Except RequestError Reply)
  | connect => do
      let result ← device.engine.connect
      return result.map fun _ => .value .nothing
  | disconnect =>
      device.engine.use fun transport => do
        let transport ← transport.disconnect
        return (.ok (.value .nothing), transport)
  | describe =>
      device.engine.observe fun
        | .rtu serial => .ok (.text serial.describe)
        | .tcp _ => .ok (.value .nothing)
  | send unit function payload => do
      let result ← device.engine.sendTo (unit.getD device.engine.unit) function payload
      return result.map fun _ => .value .nothing
  | exchange unit function payload length => do
      let engine := { device.engine with unit := unit.getD device.engine.unit }
      let result ← engine.exchange function payload length
      return result.map .bytes
  | operation task => do
      let result ← device.perform task
      return result.map .value
  | command order =>
      match device.cache with
      | none => return .error .shutdown
      | some manager => do
          let result ← manager.send order
          Action.sleep reactionTime
          return result.map fun _ => .value .nothing
  | isCached function start count =>
      match device.cache with
      | none => return .ok (.flag false)
      | some manager => do
          let cached ← manager.isCached function start count
          return .ok (.flag cached)
  | blockCount => return .ok (.number ((device.cache.map (·.blocks.length)).getD 0))
  | wait duration => do
      Action.sleep duration
      return .ok (.value .nothing)
  | server _ => return .ok (.value .nothing)

/-- What an instruction changes in the world before the device does anything. -/
def applyTo (world : World) : Instruction → World
  | server event => { world with network := world.network.after event }
  | _ => world

end Instruction

/-- What a device says about itself. -/
structure View where
  state : TransportState
  lastError : Option String
  connection : Option Tcp.ConnectionState
  status : String
  deriving DecidableEq

/-- Looks at a device; every part of the view is a turn of its own. -/
def View.of (device : Device) : Action View := do
  let lastError ← device.engine.lastError
  let state ← device.engine.state
  let connection ←
    if device.engine.protocol = .tcp then device.engine.connection? else pure none
  let status ← device.engine.status
  return { state, lastError, connection, status }

/-- What was seen in the world during a step. -/
structure Sighting where
  clock : Instant
  lines : List LineRecord
  /-- The requests that the server has read, each with the number of its connection. -/
  requests : List (Nat × Bytes)
  reports : List Event
  log : List String
  /-- How many attempts to connect each transport has started so far. -/
  attempts : List Nat
  deriving DecidableEq

/-- How many attempts to connect a transport has started. -/
def attemptsOf : Transport → Nat
  | .rtu _ => 0
  | .tcp net => net.attempts

/-- What was seen since the last time, and the world without it. -/
def World.sighting (world : World) : Sighting × World :=
  ({ clock := world.clock
     lines := world.lineRecords.reverse
     requests := world.network.requests
     reports := world.output.reverse.filterMap Output.event?
     log := world.log.reverse
     attempts := world.transports.map attemptsOf },
    { world with
      lineRecords := []
      output := []
      log := []
      network := { world.network with requests := [] } })

/-- One step of a session: the results of its instructions, what was seen, and the view. -/
structure StepReport where
  results : List (Except RequestError Reply)
  sighting : Sighting
  view : Option View

namespace Session

/-- What the tasks of a session end with. -/
inductive Ending where
  | built (result : Except ConfigError Device)
  | reply (result : Except RequestError Reply)
  | viewed (view : View)

namespace Ending

def device? : Ending → Option (Except ConfigError Device)
  | built result => some result
  | _ => none

def reply? : Ending → Option (Except RequestError Reply)
  | reply result => some result
  | _ => none

def view? : Ending → Option View
  | viewed view => some view
  | _ => none

end Ending

/-- Starts all instructions at once, each on its device, and waits for the last one to end. The
results are in the order of the instructions, each with the time at which it came. -/
def runAll (bench : Bench Ending) (jobs : List (Device × Instruction)) :
    List (Except RequestError Reply × Instant) × Bench Ending :=
  let start : Bench Ending := { bench with
    results := []
    world := jobs.foldl (fun world job => job.2.applyTo world) bench.world }
  let added := jobs.foldl (fun bench job =>
    bench.addOperation job.2.expectsAnswer (.reply <$> job.2.perform job.1)) start
  let ended := added.finish
  let result? (i : Nat) : Option (Except RequestError Reply × Instant) := do
    let (ending, time) ← ended.results.lookup (start.nextTask + i)
    return (← ending.reply?, time)
  ((List.range jobs.length).filterMap result?, ended)

/-- Looks at a device. -/
def view (bench : Bench Ending) (device : Device) : Option View × Bench Ending :=
  let (ending, bench) := bench.perform true (.viewed <$> View.of device)
  (ending.bind Ending.view?, bench)

/-- Runs one step. On a network everything comes to rest before anybody looks. -/
def runStep (bench : Bench Ending) (device : Device) (instructions : List Instruction) :
    StepReport × Bench Ending :=
  let (results, bench) := runAll bench (instructions.map (device, ·))
  let bench := if device.engine.protocol = .tcp then bench.calm else bench
  let (sighting, world) := bench.world.sighting
  let (view, bench) := view { bench with world } device
  (⟨results.map (·.1), sighting, view⟩, bench)

/-- Runs the steps one after the other. -/
def runSteps (bench : Bench Ending) (device : Device) :
    List (List Instruction) → List StepReport
  | [] => []
  | step :: rest =>
      let (report, bench) := runStep bench device step
      report :: runSteps bench device rest

/-- Gives a new polling task some time. -/
def lead (bench : Bench Ending) (device : Device) : Bench Ending :=
  (runAll bench [(device, .wait Instruction.reactionTime)]).2

/-- A world in which a device was built; nothing if the building never ends. -/
def build (world : World) (build : Action (Except ConfigError Device)) :
    Option (Except ConfigError (Device × Bench Ending)) :=
  let (ending, bench) := Bench.perform { world } true (.built <$> build)
  (ending.bind Ending.device?).map fun result => result.map fun device => (device, bench)

/-- Takes a device through steps; a polling task may be given some time before the first one. -/
def run (bench : Bench Ending) (device : Device) (pollsFirst : Bool)
    (steps : List (List Instruction)) : List StepReport :=
  runSteps (if pollsFirst && device.cache.isSome then lead bench device else bench) device steps

end Session

end ModbusMaster.Simulation
