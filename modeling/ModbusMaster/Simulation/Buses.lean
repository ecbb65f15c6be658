import ModbusMaster.Simulation.Session

/-!
Several serial engines at once, each on a line of its own. Lines that hang on one bus take turns;
lines on different buses do not wait for each other.
-/

namespace ModbusMaster.Simulation

/-- Which bus a line hangs on. -/
inductive BusChoice where
  /-- One bus that is common to all lines that choose it. -/
  | shared
  /-- The bus that all serial devices share unless they are given another. -/
  | global
  /-- A bus that no other line hangs on. -/
  | own
  deriving DecidableEq

/-- A line with the node at its far end. -/
structure Branch where
  unit : UnitId
  bus : BusChoice
  line : Line

namespace Buses

/-- The bus that is common to all lines that choose it. -/
def sharedBus : Handle := globalBus + 1

/-- The bus of the line with an index. -/
def busOf (index : Nat) : BusChoice → Handle
  | .shared => sharedBus
  | .global => globalBus
  | .own => sharedBus + 1 + index

/-- Whether a line hangs on the shared bus. -/
def isShared (index : Nat) (branch : Branch) : Bool :=
  busOf index branch.bus == sharedBus

/-- A world with the given lines, each with a transport of its own. -/
def world (branches : List Branch) : World where
  lines := branches.map (·.line)
  transports := branches.mapIdx fun index branch =>
    .rtu { line := index, bus := busOf index branch.bus, options := {} }

/-- The device on the line with an index. -/
def device (branches : List Branch) (index : Nat) : Device where
  engine := ⟨(branches[index]?.map (·.unit)).getD .default, .rtu, index⟩

/-- What was seen on the lines, in order of time and, at one time, of lines. -/
def inOrder (records : List LineRecord) : List LineRecord :=
  records.mergeSort fun a b => a.time < b.time || (a.time == b.time && a.line ≤ b.line)

/-- Starts all instructions at once, each on the line with an index. -/
def run (branches : List Branch) (jobs : List (Nat × Instruction)) :
    List (Except RequestError Reply × Instant) × List LineRecord :=
  let jobs := jobs.map fun job => (device branches job.1, job.2)
  let (results, bench) := Session.runAll { world := world branches } jobs
  (results, inOrder bench.world.lineRecords.reverse)

end Buses

end ModbusMaster.Simulation
