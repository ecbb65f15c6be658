import ModbusMaster.Client.Program
import ModbusMaster.Live

/-!
The client as a program of its own.
-/

open ModbusMaster CommandLine

/-- Runs rounds until the last one. -/
partial def runRounds (state : Live.State) (invocation : Invocation) (device : Device) :
    IO Unit := do
  if ← Live.perform state (Client.round invocation device) then
    runRounds state invocation device

def main (arguments : List String) : IO UInt32 := do
  match Invocation.parse arguments with
  | .error stop =>
      for line in Invocation.summary do
        if stop = .help then IO.println line else IO.eprintln line
      return UInt32.ofNat stop.exitCode
  | .ok invocation =>
      let state ← IO.mkRef ({} : Live.Holdings)
      match ← Live.perform state (Client.start invocation) with
      | none => pure ()
      | some device => runRounds state invocation device
      Live.closePorts state
      return 0
