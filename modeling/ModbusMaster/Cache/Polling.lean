import ModbusMaster.Engine

/-!
The polling task. It sweeps over its blocks, waits, and sweeps again, unless it is told to pause
or to stop; commands are looked at between sweeps only. The task is a machine: `PollTask.step`
takes it from one phase to the next.
-/

namespace ModbusMaster

/-- Where a polling task is. -/
inductive PollPhase where
  | sweeping
  | waiting (deadline : Instant)
  | paused
  | stopped
  deriving DecidableEq

namespace PollTask

/-- Polls the blocks from entry `index` on. A block that cannot be polled keeps its snapshot. -/
def sweepFrom (task : PollTask) (index : Nat) : List CacheBlock → Action Unit
  | [] => return ()
  | block :: rest => do
      let request := block.function.request block.range.start block.range.count
      match ← task.engine.submit request with
      | .ok cells =>
          let now ← Action.now
          Action.publish task.cache index ⟨cells, now⟩
      | .error error => Action.report (.pollFailed block error)
      task.sweepFrom (index + 1) rest

/-- Polls every block once. -/
def sweep (task : PollTask) : Action Unit :=
  task.sweepFrom 0 task.blocks

/-- What a command does to a task that is not sweeping. `running` is the phase to go on with when
there is nothing to resume. -/
def obey (running : Option PollPhase) : Signal → Action PollPhase
  | .due => return .sweeping
  | .command .pause => do
      Action.report .pollingPaused
      return .paused
  | .command .resume =>
      match running with
      | some phase => return phase
      | none => do
          Action.report .pollingResumed
          return .sweeping
  | .command .stop | .closed => do
      Action.report .pollingStopped
      return .stopped

/-- Takes the task to its next phase. -/
def step (task : PollTask) : PollPhase → Action PollPhase
  | .sweeping => do
      task.sweep
      let now ← Action.now
      return .waiting (now + task.interval)
  | .waiting deadline => do
      let signal ← Action.await task.cache (some deadline)
      obey (some (.waiting deadline)) signal
  | .paused => do
      let signal ← Action.await task.cache none
      obey none signal
  | .stopped => return .stopped

/-- The task as it starts. -/
def start (task : PollTask) : Action PollPhase := do
  Action.report (.pollingStarted task.blocks.length)
  return .sweeping

end PollTask

end ModbusMaster
