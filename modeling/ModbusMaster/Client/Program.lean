import ModbusMaster.CommandLine.Invocation
import ModbusMaster.Device

/-!
The client program: it connects to the equipment, says what it is connected to, and does its job
once, or again and again with a pause in between. Then a failure is only reported. The answer is
printed one cell to a line.
-/

namespace ModbusMaster.Client

/-- Why a job was not done. -/
inductive Failure where
  | values (error : ValuesError)
  | config (error : ConfigError)
  | request (error : RequestError)
  deriving DecidableEq

namespace Failure

def message : Failure → String
  | values error => error.message
  | config error => error.message
  | request error => error.message

/-- What an operator can do about it. -/
def hint? : Failure → Option String
  | request error => error.hint?
  | _ => none

/-- The lines that tell of a failure. -/
def lines (failure : Failure) : List String :=
  ("error: " ++ failure.message) ::
    match failure.hint? with
    | none => []
    | some hint => ["hint: " ++ hint]

end Failure

def printAll : List String → Action Unit
  | [] => return ()
  | line :: rest => do
      Action.print line
      printAll rest

/-- The first address that an operation reads. -/
def firstAddress : Operation → UInt16
  | .readCoil address => address
  | .readCoils start _ | .readDiscreteInputs start _ | .readHoldingRegisters start _
  | .readInputRegisters start _ | .readWriteRegisters start _ _ _ => start
  | _ => 0

def cellLine (address : UInt16) (cell : String) : String :=
  s!"index: {address.toNat} value: " ++ cell

/-- Prints one cell to a line, with its address. Before it is seen whether there is a cell, the
address of the next one is formed. -/
def printCells (address : UInt16) (cells : List String) : Action Unit := do
  Action.require (address.toNat < 65535) .addressOverflow
  match cells with
  | [] => return ()
  | cell :: rest =>
      Action.print (cellLine address cell)
      printCells (address + 1) rest

def stateText (state : Bool) : String :=
  if state then "true" else "false"

/-- Prints the answer to an operation. -/
def printAnswer (operation : Operation) : Value → Action Unit
  | .nothing => return ()
  | .bit state => Action.print (cellLine (firstAddress operation) (stateText state))
  | .bits states => printCells (firstAddress operation) (states.map stateText)
  | .registers contents =>
      printCells (firstAddress operation) (contents.map fun content => toString content.toNat)
  | .byte status => Action.print ("exception status: " ++ Hex.byteLiteral status)
  | .counter counter =>
      Action.print ("status: " ++ Hex.wordLiteral counter.status ++
        s!" event count: {counter.eventCount.toNat}")

/-- Does a job and prints the answer. -/
def work (device : Device) (job : Job) : Action (Except Failure Unit) := do
  match job.operation with
  | .error error => return .error (.values error)
  | .ok operation =>
      match ← device.perform operation with
      | .error error => return .error (.request error)
      | .ok value =>
          printAnswer operation value
          return .ok ()

open CommandLine (Invocation)

/-- Builds the device and connects to it. -/
def connect (invocation : Invocation) : Action (Except Failure Device) := do
  match ← invocation.config.build invocation.decode with
  | .error error => return .error (.config error)
  | .ok device =>
      match ← device.engine.connect with
      | .error error => return .error (.request error)
      | .ok () =>
          let status ← device.engine.status
          Action.report (.note status)
          return .ok device

/-- Builds the device; it is there unless that failed, which is told. -/
def start (invocation : Invocation) : Action (Option Device) := do
  match ← connect invocation with
  | .ok device => return some device
  | .error failure =>
      printAll failure.lines
      return none

/-- One round of the job; whether another one follows. -/
def round (invocation : Invocation) (device : Device) : Action Bool := do
  match ← work device invocation.job, invocation.period with
  | .ok (), none => return false
  | .error failure, none =>
      printAll failure.lines
      return false
  | result, some period =>
      match result with
      | .ok () => pure ()
      | .error failure => Action.report (.failure failure.message)
      Action.sleep period
      return true

end ModbusMaster.Client
