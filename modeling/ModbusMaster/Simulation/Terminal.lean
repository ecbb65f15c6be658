import ModbusMaster.Client.Program
import ModbusMaster.Simulation.Bench

/-!
The client program in a simulated world, as seen from a terminal: what it prints, what it asks of
the server, and how it ends.
-/

namespace ModbusMaster.Simulation.Terminal

open CommandLine (Invocation)

/-- What was seen of a run. -/
structure Screen where
  /-- The exit code; none when the program was killed. -/
  exit : Option Nat
  lines : List String
  requests : List Bytes
  deriving DecidableEq

/-- The lines of a text. -/
def linesOf (text : String) : List String :=
  (Text.fields '\n' text.toList).map String.ofList

/-- What a terminal shows of the output: all that is printed, and reports that matter. -/
def shown : Output → List String
  | .printed line => linesOf line
  | .reported event => if event.severity = .debug then [] else linesOf event.line

/-- What the tasks of a run end with. -/
inductive Ending where
  | started (device : Option Device)
  | rounded (again : Bool)

/-- Whether the program is to be killed: the server has seen so many requests. -/
def killed (killAt : Option Nat) (bench : Bench Ending) : Bool :=
  killAt.any (· ≤ bench.world.network.requests.length)

/-- Lets the program run until its action ends or it is killed. -/
def advance (killAt : Option Nat) (action : Action Ending) (bench : Bench Ending) :
    Option Ending × Bench Ending :=
  let started := { bench with results := [] }.addOperation true action
  let bench := started.runUntil
    (fun bench => killed killAt bench || !bench.tasks.any (·.2.isOperation)) Bench.patience
  ((bench.results.head?).map (·.2.1), bench)

/-- How many rounds are watched. -/
def patience : Nat := 10000

/-- Runs rounds until the last one or until the program is killed. -/
def rounds (killAt : Option Nat) (invocation : Invocation) (device : Device) :
    Nat → Bench Ending → Bench Ending
  | 0, bench => bench
  | left + 1, bench =>
      let (ending, bench) := advance killAt (.rounded <$> Client.round invocation device) bench
      match ending with
      | some (.rounded true) =>
          if killed killAt bench then bench else rounds killAt invocation device left bench
      | _ => bench

/-- A server that does not answer the request at which the program is killed. -/
def deafened (world : World) (killAt : Option Nat) : World :=
  match killAt with
  | none => world
  | some n => { world with network.script := world.network.script.take (n - 1) }

/-- Runs the program in a world; with `killAt` it is killed when the server sees that request. -/
def run (world : World) (invocation : Invocation) (killAt : Option Nat) : Screen :=
  let (ending, bench) := advance killAt (.started <$> Client.start invocation)
    { world := deafened world killAt }
  let bench := match ending with
    | some (.started (some device)) => rounds killAt invocation device patience bench
    | _ => bench
  { exit := if killed killAt bench then none else some 0
    lines := bench.world.output.reverse.flatMap shown
    requests := bench.world.network.requests.map (·.2) }

end ModbusMaster.Simulation.Terminal
