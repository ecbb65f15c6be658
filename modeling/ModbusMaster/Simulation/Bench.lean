import ModbusMaster.Cache.Polling
import ModbusMaster.Simulation.World

/-!
Tasks that take turns in a simulated world. A task runs until it has to wait. Operations go in
rounds: all that can go on go once, in the order in which they were started. Between the rounds
everything else happens, polling tasks and arriving bytes, first come first served, until there is
nothing more to happen. When all tasks wait, the clock moves on to the next time for which
something is planned.
-/

namespace ModbusMaster.Simulation

/-- What a task ends with: an operation with its result, a polling task with its next phase. -/
inductive Outcome (α : Type) where
  | result (result : α)
  | phase (poll : PollTask) (phase : PollPhase)

/-- How far an action has got. -/
inductive Progress (α : Type) where
  /-- It goes on when it is woken, or at some time. -/
  | waits (wake : Option Instant) (rest : Action α)
  | finished (result : α)

structure Task (α : Type) where
  isOperation : Bool
  /-- Whether the server is to answer the requests of the task. -/
  expectsAnswer : Bool
  /-- What the task does when it goes on. -/
  action : Action (Outcome α)

/-- Who has turns. -/
inductive Stage where
  /-- The operations; those from this one on did not have their turn in the round. -/
  | round (next : TaskId)
  /-- Everything else. -/
  | between
  deriving DecidableEq

structure Bench (α : Type) where
  world : World
  tasks : List (TaskId × Task α) := []
  nextTask : TaskId := 0
  stage : Stage := .round 0
  /-- The task that goes on without anybody coming in between. -/
  current : Option TaskId := none
  /-- The results of the operations that have ended, and when they did. -/
  results : List (TaskId × α × Instant) := []

/-- Runs an action until it has to wait. -/
def runAction {α : Type} (task : TaskId) (expectsAnswer : Bool) :
    Action α → World → Progress α × World
  | .done result, world => (.finished result, world)
  | .ask call next, world =>
      match world.answer task expectsAnswer call with
      | .now answer world => runAction task expectsAnswer (next answer) world
      | .later wake answer world => (.waits (some wake) (next answer), world)
      | .wait wake world => (.waits wake (.ask call next), world)

namespace Bench

variable {α : Type}

/-- Adds a task that can go on at once. -/
def add (bench : Bench α) (task : Task α) : Bench α :=
  { bench with
    world := bench.world.wake bench.nextTask
    tasks := bench.tasks ++ [(bench.nextTask, task)]
    nextTask := bench.nextTask + 1 }

def addOperation (bench : Bench α) (expectsAnswer : Bool) (action : Action α) : Bench α :=
  bench.add ⟨true, expectsAnswer, .result <$> action⟩

def addPolling (bench : Bench α) (poll : PollTask) : Bench α :=
  bench.add ⟨false, true, .phase poll <$> poll.start⟩

/-- Lets the polling tasks run that were started. -/
def addStarted (bench : Bench α) : Bench α :=
  bench.world.started.foldl addPolling { bench with world.started := [] }

def setAction (bench : Bench α) (id : TaskId) (action : Action (Outcome α)) : Bench α :=
  { bench with
    tasks := bench.tasks.map fun entry =>
      if entry.1 = id then (id, { entry.2 with action }) else entry }

def drop (bench : Bench α) (id : TaskId) : Bench α :=
  { bench with tasks := bench.tasks.filter fun entry => entry.1 ≠ id }

/-- The bench after a task has run as far as it could. -/
def settle (bench : Bench α) (id : TaskId) (progress : Progress (Outcome α)) : Bench α :=
  match progress with
  | .waits wake rest =>
      let waiting := bench.setAction id rest
      match wake with
      | none => waiting
      | some time => { waiting with world := waiting.world.plan time (.goOn id) }
  | .finished (.result result) =>
      let ended := bench.drop id
      { ended with results := ended.results ++ [(id, result, ended.world.clock)] }
  | .finished (.phase poll .stopped) =>
      let ended := bench.drop id
      { ended with world := ended.world.closeCache poll.cache }
  | .finished (.phase poll phase) =>
      { bench.setAction id (.phase poll <$> poll.step phase) with current := some id }

/-- Lets a task run until it has to wait. -/
def runTask (bench : Bench α) (id : TaskId) : Bench α :=
  match bench with
  | ⟨world, tasks, nextTask, stage, current, results⟩ =>
      match tasks.lookup id with
      | none => ⟨world, tasks, nextTask, stage, current, results⟩
      | some task =>
          let (progress, world) := runAction id task.expectsAnswer task.action (world.forget id)
          (settle ⟨world, tasks, nextTask, stage, current, results⟩ id progress).addStarted

def isOperation (bench : Bench α) (id : TaskId) : Bool :=
  (bench.tasks.lookup id).any (·.isOperation)

/-- The operation that a job lets go on, if it is such a job. -/
def operation? (bench : Bench α) : Job → Option TaskId
  | .goOn id => if bench.isOperation id then some id else none
  | _ => none

/-- The first operation from one on that can go on. -/
def nextOperation? (bench : Bench α) (next : TaskId) : Option TaskId :=
  ((bench.world.jobs.filterMap bench.operation?).filter (next ≤ ·)).min?

/-- Takes a job off the list of what happens next. -/
def take (bench : Bench α) (job : Job) : Bench α :=
  { bench with world.jobs := bench.world.jobs.erase job }

/-- Lets something happen. -/
def happen (bench : Bench α) : Job → Bench α
  | .goOn task => bench.runTask task
  | .setOut arrival line bytes =>
      { bench with world := bench.world.plan arrival (.arrive line bytes) }
  | .arrive line bytes => { bench with world := bench.world.arrive line bytes }

/-- Moves the clock to the next time for which something is planned, if there is one. -/
def advance (bench : Bench α) : Option (Bench α) :=
  match (bench.world.timers.map (·.1)).min? with
  | none => none
  | some time =>
      let clock := max bench.world.clock time
      let (due, timers) := bench.world.timers.partition (·.1 ≤ clock)
      let jobs := bench.world.jobs ++ due.map (·.2)
      some { bench with world := { bench.world with clock, timers, jobs }, stage := .round 0 }

/-- Lets one task go on, or something happen, or the time pass; nothing when all tasks wait for
good. -/
def turn (bench : Bench α) : Option (Bench α) :=
  match bench.current, bench.stage with
  | some id, _ => some ({ bench with current := none }.runTask id)
  | none, .round next =>
      match bench.nextOperation? next with
      | some id => some ({ bench.take (.goOn id) with stage := .round (id + 1) }.runTask id)
      | none => some { bench with stage := .between }
  | none, .between =>
      match bench.world.jobs.find? fun job => (bench.operation? job).isNone with
      | some job => some ((bench.take job).happen job)
      | none =>
          if bench.world.jobs = [] then bench.advance
          else some { bench with stage := .round 0 }

/-- Takes turns until a condition holds, but no more than a number of turns. -/
def runUntil (condition : Bench α → Bool) : Nat → Bench α → Bench α
  | 0, bench => bench
  | turns + 1, bench =>
      if condition bench then bench
      else
        match bench.turn with
        | some bench => runUntil condition turns bench
        | none => bench

/-- How many turns a simulation may take. -/
def patience : Nat := 10000000

/-- Takes turns until no operation is under way. -/
def finish (bench : Bench α) : Bench α :=
  bench.runUntil (fun bench => !bench.tasks.any (·.2.isOperation)) patience

/-- Whether nothing more happens before time passes. -/
def isQuiet (bench : Bench α) : Bool :=
  bench.current.isNone && bench.world.jobs.isEmpty &&
    bench.world.timers.all fun timer => bench.world.clock < timer.1

/-- Takes turns until nothing more happens before time passes. -/
def calm (bench : Bench α) : Bench α :=
  bench.runUntil isQuiet patience

/-- Runs one operation to its end. -/
def perform (bench : Bench α) (expectsAnswer : Bool) (action : Action α) :
    Option α × Bench α :=
  let bench := ({ bench with results := [] }.addOperation expectsAnswer action).finish
  ((bench.results.head?).map (·.2.1), bench)

end Bench

end ModbusMaster.Simulation
