import ModbusMaster.Action

/-!
A simulated network with one scripted server. The server reads every request that reaches it and
answers as its script says; connections may be refused, may hang, or may not be possible at all.
-/

namespace ModbusMaster.Simulation

/-- What becomes of an attempt to connect. -/
inductive Reachability where
  /-- There is no network. -/
  | unreachable
  /-- Nobody listens. -/
  | refusing
  /-- The server accepts. -/
  | accepting
  /-- Nothing comes back at all. -/
  | blackhole
  deriving DecidableEq

/-- What the server does about a request. -/
inductive ServerAction where
  | reply (bytes : Bytes)
  | replyAndClose (bytes : Bytes)
  | close
  | reset
  | silent
  deriving DecidableEq

/-- How the far end of a connection is. -/
inductive FarEnd where
  | serving
  /-- It has closed; what is written now is not seen. -/
  | closed
  /-- It has closed, and something was written since. -/
  | gone
  /-- It has aborted the connection. -/
  | aborted
  deriving DecidableEq

structure Connection where
  /-- Bytes that the client has not read yet. -/
  unread : Bytes := []
  farEnd : FarEnd := .serving
  /-- What the server has still to do about requests; it gets to it when the client waits. -/
  todo : List ServerAction := []
  deriving DecidableEq

namespace Connection

/-- A connection after the server has acted on a request. -/
def after (connection : Connection) : ServerAction → Connection
  | .reply bytes => { connection with unread := connection.unread ++ bytes }
  | .replyAndClose bytes =>
      { connection with unread := connection.unread ++ bytes, farEnd := .closed }
  | .close => { connection with farEnd := .closed }
  | .reset => { connection with farEnd := .aborted }
  | .silent => connection

/-- A connection after the server has done everything that it had to do. -/
def settled (connection : Connection) : Connection :=
  connection.todo.foldl after { connection with todo := [] }

end Connection

structure Network where
  reachability : Reachability := .unreachable
  /-- The port that the server listens on, if others refuse. -/
  port : Option UInt16 := none
  script : List ServerAction := []
  /-- The connections accepted so far, the first one being number 1. -/
  connections : List Connection := []
  /-- The requests read so far, each with the number of its connection. -/
  requests : List (Nat × Bytes) := []
  deriving DecidableEq

namespace Network

/-- The connection with a number. -/
def connection (network : Network) (stream : Handle) : Connection :=
  network.connections.getD (stream - 1) { farEnd := .gone }

def setConnection (network : Network) (stream : Handle) (connection : Connection) : Network :=
  { network with connections := network.connections.set (stream - 1) connection }

/-- Accepts a connection. -/
def accept (network : Network) : Handle × Network :=
  (network.connections.length + 1,
    { network with connections := network.connections ++ [{}] })

/-- What becomes of an attempt to connect to a port of the machine that the server runs on. -/
def reachPort (network : Network) (port : UInt16) : Reachability :=
  match network.reachability, network.port with
  | .accepting, some listening => if port = listening then .accepting else .refusing
  | reachability, _ => reachability

/-- What becomes of an attempt to connect. The network has no other machine than the one that the
server runs on, and nobody listens at its other addresses. -/
def reach (network : Network) (host : Host) (port : UInt16) : Reachability :=
  match network.reachability, host with
  | .unreachable, _ => .unreachable
  | _, .v4 [127, 0, 0, 1] | _, .v4 [0, 0, 0, 0] => network.reachPort port
  | _, .v4 (127 :: _) => .refusing
  | _, _ => .unreachable

/-- The server reads a request and, if an answer is expected, will act on it. -/
def serve (network : Network) (stream : Handle) (request : Bytes) (expectsAnswer : Bool) :
    Network :=
  let seen := { network with requests := network.requests ++ [(stream, request)] }
  if expectsAnswer then
    let action := network.script.headD .silent
    let connection := network.connection stream
    { seen with script := network.script.tail }.setConnection stream
      { connection with todo := connection.todo ++ [action] }
  else seen

/-- Writes a request to a connection. -/
def transmit (network : Network) (stream : Handle) (request : Bytes) (expectsAnswer : Bool) :
    Except IoError Unit × Network :=
  let connection := (network.connection stream).settled
  let network := network.setConnection stream connection
  match connection.farEnd with
  | .serving => (.ok (), network.serve stream request expectsAnswer)
  | .closed => (.ok (), network.setConnection stream { connection with farEnd := .gone })
  | .gone => (.error .brokenPipe, network)
  | .aborted => (.error .connectionReset, network)

/-- What a read of up to `count` bytes gives at once, if anything; nothing at the end. Bytes that
were left over from before come first, and the server acts only after they were read. -/
def receive? (network : Network) (stream : Handle) (count : Nat) :
    Option (Except IoError Bytes) × Network :=
  let given := network.connection stream
  let connection := if given.unread = [] then given.settled else given
  if connection.unread ≠ [] then
    (some (.ok (connection.unread.take count)),
      network.setConnection stream
        { connection with unread := connection.unread.drop count }.settled)
  else
    let network := network.setConnection stream connection
    match connection.farEnd with
    | .serving => (none, network)
    | .closed | .gone => (some (.ok []), network)
    | .aborted => (some (.error .connectionReset), network)

/-- The client closes a connection. -/
def close (network : Network) (stream : Handle) : Network :=
  network.setConnection stream { farEnd := .gone }

/-- The server starts to listen. -/
def startListening (network : Network) : Network :=
  if network.reachability = .unreachable then network
  else { network with reachability := .accepting }

/-- The server stops listening; connections stay. -/
def stopListening (network : Network) : Network :=
  if network.reachability = .unreachable then network
  else { network with reachability := .refusing }

/-- The server closes all its connections. -/
def closeAll (network : Network) : Network :=
  { network with
    connections := network.connections.map fun connection =>
      let connection := connection.settled
      if connection.farEnd = .serving then { connection with farEnd := .closed } else connection }

/-- The server aborts all its connections. -/
def abortAll (network : Network) : Network :=
  { network with
    connections := network.connections.map fun connection =>
      let connection := connection.settled
      if connection.farEnd = .serving then { connection with farEnd := .aborted } else connection }

end Network

/-- What happens to the server by itself. -/
inductive ServerEvent where
  | startsListening
  | stopsListening
  | closesAll
  | abortsAll
  deriving DecidableEq

/-- The network after something has happened to the server. -/
def Network.after (network : Network) : ServerEvent → Network
  | .startsListening => network.startListening
  | .stopsListening => network.stopListening
  | .closesAll => network.closeAll
  | .abortsAll => network.abortAll

end ModbusMaster.Simulation
