import ModbusMaster.Cache.Store
import ModbusMaster.Serial.Log
import ModbusMaster.Transport

/-!
What the master does to the world outside, one call at a time. A call has an answer of its own
type, and an action is a tree of calls: it is finished, or makes a call and goes on with the
answer. The same action can be run against a real medium, against a simulated one, or one call at
a time between the calls of other actions; what it means against any medium at all is
`Action.Runs`.
-/

namespace ModbusMaster

/-- Why a call on a connection did not succeed. -/
inductive Interruption where
  | failed (kind : IoError)
  /-- The time limit passed first. -/
  | elapsed
  deriving DecidableEq

/-- What the polling task is told to do. -/
inductive Command where
  | pause
  | resume
  | stop
  deriving DecidableEq

/-- What the polling task waits for. -/
inductive Signal where
  | command (command : Command)
  /-- Nobody can send commands any more. -/
  | closed
  /-- The deadline has come. -/
  | due
  deriving DecidableEq

/-- Why an operation panics. -/
inductive Panic where
  /-- The end of a reply is past every index. -/
  | indexOverflow
  /-- An address is past the last one. -/
  | addressOverflow
  /-- An instant is later than every one that the clock can show. -/
  | instantOverflow
  deriving DecidableEq

inductive Call where
  /-- Waits until no other transport uses the bus, and takes it. -/
  | acquireBus (bus : Handle)
  | releaseBus (bus : Handle)
  /-- Drops everything that waits on a serial line. -/
  | flush (line : Handle)
  | write (line : Handle) (bytes : Bytes)
  /-- Reads up to `count` bytes, fewer if the line's timeout passes first. -/
  | read (line : Handle) (count : Nat)
  /-- Opens a connection within the connect timeout. -/
  | connect (settings : Tcp.Settings) (host : Host)
  | transmit (stream : Handle) (bytes : Bytes) (limit : Duration)
  /-- Reads what there is, up to `count` bytes; nothing at the end of the stream. -/
  | receive (stream : Handle) (count : Nat) (limit : Duration)
  | close (stream : Handle)
  /-- Waits until no other operation uses the engine's transport, and takes it. -/
  | acquireTransport (engine : Handle)
  /-- Gives the engine's transport back as it is now. -/
  | releaseTransport (engine : Handle) (transport : Transport)
  | now
  /-- Lets a length of time pass. -/
  | sleep (duration : Duration)
  | sleepUntil (instant : Instant)
  /-- The entries of a cache as they are now. -/
  | entries (cache : Handle)
  /-- Replaces the snapshot of one entry. -/
  | publish (cache : Handle) (index : Nat) (snapshot : Snapshot)
  /-- Sends a command to the polling task; whether the task is still there. -/
  | command (cache : Handle) (command : Command)
  /-- Waits for a command or a deadline. -/
  | await (cache : Handle) (deadline : Option Instant)
  /-- Opens a serial port; the reason if that failed. -/
  | openPort (path : String) (settings : Serial.Settings)
  /-- Keeps a transport for a new engine. -/
  | newEngine (transport : Transport)
  /-- Keeps the entries and the commands of a new cache. -/
  | newCache (blocks : List CacheBlock)
  /-- Lets a polling task run from now on. -/
  | startPolling (task : PollTask)
  | report (event : Event)
  /-- Appends an entry to a file; the reason if that failed. -/
  | appendLog (path : String) (entry : Serial.LogEntry)
  /-- Prints a line. -/
  | print (line : String)
  /-- Panics. Where nobody answers this, the operation ends here and has no result. Where it is
  answered, the operation goes on as if there were no limit. -/
  | panic (cause : Panic)

/-- The type of the answer to a call. -/
def Call.Answer : Call → Type
  | flush _ | write .. => Except IoError Unit
  | read .. => Except IoError Bytes
  | connect .. => Except Interruption Handle
  | transmit .. => Except Interruption Unit
  | receive .. => Except Interruption Bytes
  | acquireTransport _ => Transport
  | now => Instant
  | entries _ => CacheStore
  | command .. => Bool
  | await .. => Signal
  | openPort .. => Except String Handle
  | newEngine _ | newCache _ => Handle
  | appendLog .. => Option String
  | _ => Unit

inductive Action (α : Type) where
  | done (result : α)
  | ask (call : Call) (next : call.Answer → Action α)

namespace Action

variable {α β : Type}

protected def bind : Action α → (α → Action β) → Action β
  | done result, f => f result
  | ask call next, f => ask call fun answer => (next answer).bind f

instance : Monad Action where
  pure := done
  bind := Action.bind

/-- The action that makes one call. -/
def perform (call : Call) : Action call.Answer :=
  ask call done

/-- One call with its answer. -/
structure Step where
  call : Call
  answer : call.Answer

/-- The action may make the calls of a history, be given the answers in it, and end with a
result. Nothing is assumed of the answers. -/
inductive Runs : Action α → List Step → α → Prop where
  | done (result : α) : Runs (done result) [] result
  | ask {call : Call} {next : call.Answer → Action α} {answer : call.Answer}
      {history : List Step} {result : α} (rest : Runs (next answer) history result) :
      Runs (ask call next) (⟨call, answer⟩ :: history) result

/-- The result of an action, and what it leaves behind, when every call is answered at once by a
world with a state. -/
def run {σ : Type} (answer : (call : Call) → σ → call.Answer × σ) : Action α → σ → α × σ
  | done result, state => (result, state)
  | ask call next, state =>
      let reply := answer call state
      (next reply.1).run answer reply.2

/-! ### Single calls -/

def acquireBus (bus : Handle) : Action Unit := perform (.acquireBus bus)

def releaseBus (bus : Handle) : Action Unit := perform (.releaseBus bus)

def flush (line : Handle) : Action (Except IoError Unit) := perform (.flush line)

def write (line : Handle) (bytes : Bytes) : Action (Except IoError Unit) :=
  perform (.write line bytes)

def read (line : Handle) (count : Nat) : Action (Except IoError Bytes) :=
  perform (.read line count)

def connect (settings : Tcp.Settings) (host : Host) : Action (Except Interruption Handle) :=
  perform (.connect settings host)

def transmit (stream : Handle) (bytes : Bytes) (limit : Duration) :
    Action (Except Interruption Unit) :=
  perform (.transmit stream bytes limit)

def receive (stream : Handle) (count : Nat) (limit : Duration) :
    Action (Except Interruption Bytes) :=
  perform (.receive stream count limit)

def close (stream : Handle) : Action Unit := perform (.close stream)

def acquireTransport (engine : Handle) : Action Transport := perform (.acquireTransport engine)

def releaseTransport (engine : Handle) (transport : Transport) : Action Unit :=
  perform (.releaseTransport engine transport)

def now : Action Instant := perform .now

def sleep (duration : Duration) : Action Unit := perform (.sleep duration)

def sleepUntil (instant : Instant) : Action Unit := perform (.sleepUntil instant)

def entries (cache : Handle) : Action CacheStore := perform (.entries cache)

def publish (cache : Handle) (index : Nat) (snapshot : Snapshot) : Action Unit :=
  perform (.publish cache index snapshot)

def command (cache : Handle) (command : Command) : Action Bool :=
  perform (.command cache command)

def await (cache : Handle) (deadline : Option Instant) : Action Signal :=
  perform (.await cache deadline)

def openPort (path : String) (settings : Serial.Settings) : Action (Except String Handle) :=
  perform (.openPort path settings)

def newEngine (transport : Transport) : Action Handle := perform (.newEngine transport)

def newCache (blocks : List CacheBlock) : Action Handle := perform (.newCache blocks)

def startPolling (task : PollTask) : Action Unit := perform (.startPolling task)

def report (event : Event) : Action Unit := perform (.report event)

def appendLog (path : String) (entry : Serial.LogEntry) : Action (Option String) :=
  perform (.appendLog path entry)

def print (line : String) : Action Unit := perform (.print line)

def panic (cause : Panic) : Action Unit := perform (.panic cause)

/-- Panics unless a condition holds. -/
def require (condition : Prop) [Decidable condition] (cause : Panic) : Action Unit :=
  if condition then pure () else panic cause

/-! ### Laws -/

theorem bind_done (action : Action α) : action.bind done = action := by
  induction action with
  | done => rfl
  | ask call next ih => simp [Action.bind, ih]

theorem bind_bind {γ : Type} (action : Action α) (f : α → Action β) (g : β → Action γ) :
    (action.bind f).bind g = action.bind fun a => (f a).bind g := by
  induction action with
  | done => rfl
  | ask call next ih => simp [Action.bind, ih]

instance : LawfulMonad Action :=
  LawfulMonad.mk' Action bind_done (fun _ _ => rfl) bind_bind

/-- A run of one action after another is a run of each, one after the other. -/
theorem runs_bind_iff {action : Action α} {f : α → Action β} {history : List Step} {result : β} :
    (action.bind f).Runs history result ↔
      ∃ first second middle, history = first ++ second ∧ action.Runs first middle ∧
        (f middle).Runs second result := by
  induction action generalizing history with
  | done a =>
    constructor
    · intro h
      exact ⟨[], history, a, rfl, .done a, h⟩
    · rintro ⟨first, second, middle, rfl, hfirst, hsecond⟩
      cases hfirst
      exact hsecond
  | ask call next ih =>
    constructor
    · intro h
      cases h with
      | ask rest =>
        obtain ⟨first, second, middle, rfl, hfirst, hsecond⟩ := (ih _).mp rest
        exact ⟨_ :: first, second, middle, rfl, .ask hfirst, hsecond⟩
    · rintro ⟨first, second, middle, rfl, hfirst, hsecond⟩
      cases hfirst with
      | ask rest => exact .ask ((ih _).mpr ⟨_, second, middle, rfl, rest, hsecond⟩)

end Action

end ModbusMaster
