import ModbusMaster.Proofs.Engine.Outcome

/-!
What state and last error tell about the last operation. Every send and every exchange puts its
result there before the transport is given back. An attempt to connect does not, and a reply that
decodes but does not answer the request is found out only after that, so the exchange counts as a
success.
-/

namespace ModbusMaster

/-- State and last error tell how an operation ended. -/
def Health.Tells {α : Type} (health : Health) : Except RequestError α → Prop
  | .ok _ => health = ⟨.on, none⟩
  | .error error =>
      health.state = .unknown ∧ ∃ front, health.lastError = some (front ++ error.message)

/-- Calls that reach the medium. -/
def Call.OnMedium : Call → Prop
  | .flush _ | .write .. | .read .. | .connect .. | .transmit .. | .receive .. => True
  | _ => False

/-- The result is no reply that fails to answer its request. -/
def Answering {α : Type} (result : Except RequestError α) : Prop :=
  ∀ cause, result ≠ .error (.badResponse cause)

section Results

variable {α β : Type} {result : Except RequestError α} {health : Health}

theorem Health.Tells.map (h : health.Tells result) (f : α → β) : health.Tells (result.map f) := by
  cases result with
  | ok => exact h
  | error => exact h

theorem Answering.map (h : Answering result) (f : α → β) : Answering (result.map f) := by
  cases result with
  | ok => exact nofun
  | error error =>
    intro cause heq
    cases heq
    exact h cause rfl

theorem Undisturbed.answering (h : Undisturbed result) : Answering result := by
  rintro cause rfl
  exact nomatch h

theorem Frame.Decoded.answering {protocol : Protocol} {raw : Bytes} {length : Nat}
    {result : Except RequestError Bytes} (h : Decoded protocol raw length result) :
    Answering result := by
  cases h with
  | malformed | refusal | reply => exact nofun

theorem Outcome.answering {protocol : Protocol} {length : Nat} {check : CrcCheck} {heard : Bytes}
    {result : Except RequestError Bytes} (h : Outcome protocol length check heard result) :
    Answering result := by
  cases h with
  | refused cause => exact nofun
  | failed hclass =>
    rintro cause ⟨⟩
    exact nomatch hclass
  | decoded => exact (Frame.decoded protocol heard length check).answering

end Results

namespace Serial.Transport

variable {transport : Transport} {unit : UnitId} {function : UInt8} {payload : Bytes}

theorem after_tells {α : Type} (transport : Transport) (result : Except RequestError α) :
    (transport.after result).health.Tells result := by
  cases result with
  | ok => rfl
  | error error => exact ⟨rfl, "", congrArg some (String.empty_append).symm⟩

theorem send_tells :
    (transport.send unit function payload).Does (fun _ => True)
      fun outcome => outcome.2.health.Tells outcome.1 := by
  unfold send
  split
  next cause _ => exact transport.after_tells (.error (.badRequest cause) : Except _ Unit)
  next =>
    refine (Action.does_any _).bind fun _ _ => (Action.does_any _).bind fun _ _ => ?_
    exact (Action.does_any _).bind fun _ _ => (Action.does_any _).bind fun _ _ => after_tells _ _

theorem exchange_tells {length : Nat} :
    (transport.exchange unit function payload length).Does (fun _ => True)
      fun outcome => outcome.2.health.Tells outcome.1 := by
  unfold exchange
  split
  next cause _ => exact transport.after_tells (.error (.badRequest cause) : Except _ Bytes)
  next =>
    refine (Action.does_any _).bind fun _ _ => (Action.does_any _).bind fun _ _ => ?_
    exact (Action.does_any _).bind fun _ _ => (Action.does_any _).bind fun _ _ => after_tells _ _

theorem send_answering :
    (transport.send unit function payload).Does (fun _ => True)
      fun outcome => Answering outcome.1 := by
  unfold send
  split
  next => exact nofun
  next =>
    refine (Action.does_any _).bind fun _ _ => ?_
    refine (writeFrame_silent.mono_calls fun _ _ => trivial).bind fun result hwrite => ?_
    exact (Action.does_any _).bind fun _ _ => (Action.does_any _).bind fun _ _ =>
      hwrite.answering

end Serial.Transport

namespace Tcp.Transport

variable {transport : Transport} {unit : UnitId} {function : UInt8} {payload : Bytes}

theorem after_tells {α : Type} (transport : Transport) (result : Except RequestError α) :
    (transport.after result).health.Tells result := by
  cases result with
  | ok => rfl
  | error error => exact ⟨rfl, _, rfl⟩

theorem send_tells :
    (transport.send unit function payload).Does (fun _ => True)
      fun outcome => outcome.2.health.Tells outcome.1 := by
  unfold send
  split
  next cause _ => exact transport.after_tells (.error (.badRequest cause) : Except _ Unit)
  next =>
    refine (Action.does_any _).bind fun outcome _ => ?_
    rcases outcome with ⟨error | _, connected⟩
    case error => exact connected.after_tells (.error error : Except _ Unit)
    case ok => exact (Action.does_any _).bind fun _ _ => after_tells _ _

theorem exchange_tells {length : Nat} :
    (transport.exchange unit function payload length).Does (fun _ => True)
      fun outcome => outcome.2.health.Tells outcome.1 := by
  unfold exchange
  split
  next cause _ => exact transport.after_tells (.error (.badRequest cause) : Except _ Bytes)
  next => exact (Action.does_any _).bind fun _ _ => after_tells _ _

theorem send_answering :
    (transport.send unit function payload).Does (fun _ => True)
      fun outcome => Answering outcome.1 := by
  unfold send
  split
  next => exact nofun
  next =>
    refine (connect_mute.mono_calls fun _ _ => trivial).bind fun outcome hconnect => ?_
    rcases outcome with ⟨error | _, connected⟩
    case error => exact hconnect.answering
    case ok =>
      refine (writeFrame_silent.mono_calls fun _ _ => trivial).bind fun _ hwrite => ?_
      exact hwrite.answering

/-- An attempt to connect leaves the health as it is, whatever comes of it. -/
theorem connect_keeps_health :
    transport.connect.Does (fun _ => True) fun outcome => outcome.2.health = transport.health := by
  unfold connect
  split
  next => exact rfl
  next =>
    refine (Action.does_any _).bind fun now _ => ?_
    split
    next => exact (Action.does_any _).bind fun _ _ => rfl
    next =>
      refine (Action.does_any _).bind fun start _ => (Action.does_any _).bind fun outcome _ => ?_
      cases outcome with
      | ok stream => exact (Action.does_any _).bind fun _ _ => rfl
      | error interruption => exact (Action.does_any _).bind fun _ _ => rfl

end Tcp.Transport

namespace Transport

variable {transport : Transport} {unit : UnitId} {function : UInt8} {payload : Bytes}
  {history : List Action.Step} {kept : Transport}

theorem connect_status {result : Except RequestError Unit}
    (hruns : transport.connect.Runs history (result, kept)) : kept.health = transport.health := by
  cases transport with
  | rtu serial =>
    cases hruns
    rfl
  | tcp net =>
    have h : (connect (.tcp net)).Does (fun _ => True) fun outcome =>
        outcome.2.health = net.health := Tcp.Transport.connect_keeps_health.bind fun _ h => h
    exact (h.of_runs hruns).2

theorem send_status {result : Except RequestError Unit}
    (hruns : (transport.send unit function payload).Runs history (result, kept)) :
    kept.health.Tells result ∧ Answering result := by
  have htells : (transport.send unit function payload).Does (fun _ => True) fun outcome =>
      outcome.2.health.Tells outcome.1 := by
    cases transport with
    | rtu serial => exact Serial.Transport.send_tells.bind fun _ h => h
    | tcp net => exact Tcp.Transport.send_tells.bind fun _ h => h
  have hanswering : (transport.send unit function payload).Does (fun _ => True) fun outcome =>
      Answering outcome.1 := by
    cases transport with
    | rtu serial => exact Serial.Transport.send_answering.bind fun _ h => h
    | tcp net => exact Tcp.Transport.send_answering.bind fun _ h => h
  exact ⟨(htells.of_runs hruns).2, (hanswering.of_runs hruns).2⟩

theorem exchange_status {length : Nat} {result : Except RequestError Bytes}
    (hruns : (transport.exchange unit function payload length).Runs history (result, kept)) :
    kept.health.Tells result ∧ Answering result := by
  have htells : (transport.exchange unit function payload length).Does (fun _ => True)
      fun outcome => outcome.2.health.Tells outcome.1 := by
    cases transport with
    | rtu serial => exact Serial.Transport.exchange_tells.bind fun _ h => h
    | tcp net => exact Tcp.Transport.exchange_tells.bind fun _ h => h
  exact ⟨(htells.of_runs hruns).2, (exchange_outcome.of_heard hruns).answering⟩

end Transport

namespace Engine

/-- What a caller does with an engine. -/
inductive Use where
  | connect
  | send (function : UInt8) (payload : Bytes)
  | sendTo (unit : UnitId) (function : UInt8) (payload : Bytes)
  | exchange (function : UInt8) (payload : Bytes) (length : Nat)
  | perform (operation : Operation)

/-- Makes use of an engine; whether that succeeds. -/
def Use.on (engine : Engine) : Use → Action (Except RequestError Unit)
  | connect => engine.connect
  | send function payload => engine.send function payload
  | sendTo unit function payload => engine.sendTo unit function payload
  | exchange function payload length => do
      let result ← engine.exchange function payload length
      return result.map fun _ => ()
  | perform operation => do
      let result ← engine.perform operation
      return result.map fun _ => ()

/-- Makes use of an engine and looks at its state and last error then. -/
def Use.thenStatus (use : Use) (engine : Engine) : Action (Except RequestError Unit × Health) := do
  let result ← use.on engine
  let state ← engine.state
  let lastError ← engine.lastError
  return (result, ⟨state, lastError⟩)

/-- Nobody else uses the engine: its transport is as it was given back. Other calls may be answered
in any way. -/
def undisturbed : Environment Transport := fun kept step after =>
  match step with
  | ⟨.acquireTransport _, transport⟩ => transport = kept ∧ after = kept
  | ⟨.releaseTransport _ transport, _⟩ => after = transport
  | _ => after = kept

variable {α : Type} {engine : Engine} {kept : Transport}

theorem use_ensures {work : Transport → Action (α × Transport)} {post : α → Transport → Prop}
    (h : ∀ history result after, (work kept).Runs history (result, after) → post result after) :
    (engine.use work).Ensures undisturbed post kept := by
  rintro taken after ⟨rfl, rfl⟩
  have hwork : (work after).Ensures undisturbed (fun outcome _ => post outcome.1 outcome.2)
      after :=
    Action.ensures_iff.mpr fun history outcome _ hruns _ => h history outcome.1 outcome.2 hruns
  refine hwork.bind fun outcome _ hpost => ?_
  intro _ after hafter
  rw [show after = outcome.2 from hafter]
  exact hpost

theorem observe_ensures (view : Transport → α) :
    (engine.observe view).Ensures undisturbed
      (fun result after => result = view kept ∧ after = kept) kept := by
  refine use_ensures fun history result after hruns => ?_
  cases hruns
  exact ⟨rfl, rfl⟩

theorem thenStatus_ensures {use : Use} {post : Except RequestError Unit → Health → Prop}
    (h : (use.on engine).Ensures undisturbed (fun result after => post result after.health) kept) :
    (use.thenStatus engine).Ensures undisturbed (fun outcome _ => post outcome.1 outcome.2)
      kept := by
  refine h.bind fun result after hpost => ?_
  refine (observe_ensures _).bind fun state after' hstate => ?_
  obtain ⟨rfl, rfl⟩ := hstate
  refine (observe_ensures _).bind fun lastError after'' hlast => ?_
  obtain ⟨rfl, rfl⟩ := hlast
  exact hpost

/-- How a use shows in the status: connecting leaves it as it was, and so does what is only found
out about a reply when the transport was given back. -/
def Use.Shows (use : Use) (before : Health) (result : Except RequestError Unit) (after : Health) :
    Prop :=
  match use, result with
  | .connect, _ => after = before
  | .perform _, .error (.badResponse _) => after = ⟨.on, none⟩
  | _, _ => after.Tells result

theorem Use.shows_of_tells {use : Use} {before after : Health} {result : Except RequestError Unit}
    (huse : use ≠ .connect) (h : after.Tells result) (hanswering : Answering result) :
    use.Shows before result after := by
  unfold Shows
  split
  next => exact absurd rfl huse
  next cause => exact absurd rfl (hanswering cause)
  next => exact h

theorem sendTo_shows (use : Use) (huse : use ≠ .connect) {before : Health} {unit : UnitId}
    {function : UInt8} {payload : Bytes} :
    (engine.sendTo unit function payload).Ensures undisturbed
      (fun result after => use.Shows before result after.health) kept := by
  refine use_ensures fun history result after hruns => ?_
  obtain ⟨htells, hanswering⟩ := Transport.send_status hruns
  exact Use.shows_of_tells huse htells hanswering

theorem exchange_tells {function : UInt8} {payload : Bytes} {length : Nat} :
    (engine.exchange function payload length).Ensures undisturbed
      (fun result after => after.health.Tells result ∧ Answering result) kept :=
  use_ensures fun _ _ _ hruns => Transport.exchange_status hruns

theorem execute_shows {request : Request α} {operation : Operation} {before : Health} :
    (engine.execute request).Ensures undisturbed
      (fun result after =>
        (Use.perform operation).Shows before (result.map fun _ => ()) after.health) kept := by
  refine exchange_tells.bind fun result after h => ?_
  obtain ⟨htells, hanswering⟩ := h
  cases result with
  | error error =>
    exact Use.shows_of_tells nofun (htells.map fun _ => ()) (hanswering.map fun _ => ())
  | ok reply =>
    -- the transport is given back healthy before it is found out what the reply answers
    show Use.Shows _ _ (((request.answerOf reply).mapError .badResponse).map _) after.health
    cases request.answerOf reply with
    | error cause => exact htells
    | ok value => exact htells

theorem perform_shows {operation : Operation} {demand : Demand}
    (hdemand : operation.demand = .ok demand) {before : Health} :
    ((Use.perform operation).on engine).Ensures undisturbed
      (fun result after => (Use.perform operation).Shows before result after.health) kept := by
  show (engine.perform operation >>= fun result => pure (result.map fun _ => ())).Ensures _ _ _
  unfold perform
  rw [hdemand]
  cases demand with
  | exchange request => exact execute_shows.bind fun _ _ h => h
  | broadcast function payload =>
    have hsend : (engine.sendTo UnitId.broadcast function.code payload).Ensures undisturbed
        (fun result after => after.health.Tells result ∧ Answering result) kept :=
      use_ensures fun _ _ _ hruns => Transport.send_status hruns
    simp only [bind_assoc, pure_bind]
    refine hsend.bind fun result after h => ?_
    exact Use.shows_of_tells nofun ((h.1.map _).map _) ((h.2.map _).map _)

theorem on_shows {use : Use} (hdemand : ∀ operation, use = .perform operation →
      ∃ demand, operation.demand = .ok demand) :
    (use.on engine).Ensures undisturbed
      (fun result after => use.Shows kept.health result after.health) kept := by
  cases use with
  | connect => exact use_ensures fun _ _ _ hruns => Transport.connect_status hruns
  | send function payload => exact sendTo_shows (.send function payload) nofun
  | sendTo unit function payload => exact sendTo_shows (.sendTo unit function payload) nofun
  | exchange function payload length =>
    refine exchange_tells.bind fun result after h => ?_
    show (Use.exchange function payload length).Shows kept.health (result.map fun _ => ())
      after.health
    exact Use.shows_of_tells nofun (h.1.map _) (h.2.map _)
  | perform operation =>
    obtain ⟨demand, hdemand⟩ := hdemand operation rfl
    exact perform_shows hdemand

/-- An operation whose arguments do not pass their checks stays away from the medium. -/
theorem refused_off_medium {operation : Operation} {cause : InvalidRequest}
    (hdemand : operation.demand = .error cause) :
    ((Use.perform operation).thenStatus engine).Does (fun call => ¬ call.OnMedium)
      fun _ => True := by
  have hrefused : (Use.perform operation).on engine =
      pure (.error (.badRequest cause) : Except RequestError Unit) := by
    show (engine.perform operation >>= fun result => pure (result.map fun _ => ())) = _
    rw [perform, hdemand]
    rfl
  unfold Use.thenStatus
  rw [hrefused, pure_bind]
  exact ⟨id, fun _ => ⟨id, fun _ => ⟨id, fun _ => ⟨id, fun _ => trivial⟩⟩⟩⟩

/-- Right after a use that has reached the medium, state and last error tell how it ended, unless
it was to connect or the reply did not answer the request. -/
theorem status_shows {use : Use} {history : List Action.Step} {result : Except RequestError Unit}
    {health : Health} {after : Transport}
    (hruns : (use.thenStatus engine).Runs history (result, health))
    (hallows : undisturbed.Allows kept history after)
    (hreached : ∃ step ∈ history, step.call.OnMedium) : use.Shows kept.health result health := by
  have hdemand : ∀ operation, use = .perform operation →
      ∃ demand, operation.demand = .ok demand := by
    rintro operation rfl
    cases hdemand : operation.demand with
    | ok demand => exact ⟨demand, rfl⟩
    | error cause =>
      -- a refused operation reaches no medium
      obtain ⟨step, hstep, hmedium⟩ := hreached
      exact absurd hmedium (((refused_off_medium hdemand).of_runs hruns).1 step hstep)
  exact Action.ensures_iff.mp (thenStatus_ensures (on_shows hdemand)) _ _ _ hruns hallows

/-- A request is written on an open connection and nothing comes back in time. -/
theorem status_shows_timeout :
    let net : Tcp.Transport :=
      { settings := { host := "plc", port := 502 }, host := .v4 [10, 0, 0, 7], stream := some 1
        connection := .connected }
    let engine : Engine := ⟨⟨0x2A⟩, .tcp, 0⟩
    let use : Use := .exchange 4 [0, 0, 0, 1] 4
    let message := net.wording .responseTimeout
    ∃ history after, (use.thenStatus engine).Runs history
        (.error .responseTimeout, ⟨.unknown, some message⟩) ∧
      undisturbed.Allows (.tcp net) history after ∧
      use.Shows net.health (.error .responseTimeout) ⟨.unknown, some message⟩ := by
  intro net engine use message
  let kept : Transport := .tcp { net with
    stream := none, connection := .disconnected, health := ⟨.unknown, some message⟩ }
  let history : List Action.Step :=
    [⟨.acquireTransport 0, .tcp net⟩,
      ⟨.transmit 1 [0x2A, 0, 0, 0, 0, 6, 0x2A, 4, 0, 0, 0, 1] net.settings.timeout, .ok ()⟩,
      ⟨.receive 1 512 net.settings.timeout, .error .elapsed⟩, ⟨.close 1, ()⟩,
      ⟨.report (.disconnected net.address), ()⟩, ⟨.releaseTransport 0 kept, ()⟩,
      ⟨.acquireTransport 0, kept⟩, ⟨.releaseTransport 0 kept, ()⟩,
      ⟨.acquireTransport 0, kept⟩, ⟨.releaseTransport 0 kept, ()⟩]
  have hruns : (use.thenStatus engine).Runs history
      (.error .responseTimeout, ⟨.unknown, some message⟩) := by
    refine .ask (.ask (.ask (.ask (.ask (.ask ?_)))))
    exact .ask (.ask (.ask (.ask (.done _))))
  have hallows : undisturbed.Allows (.tcp net) history kept := by
    refine .cons ⟨rfl, rfl⟩ (.cons rfl (.cons rfl (.cons rfl (.cons rfl (.cons rfl ?_)))))
    exact .cons ⟨rfl, rfl⟩ (.cons rfl (.cons ⟨rfl, rfl⟩ (.cons rfl (.nil _))))
  exact ⟨history, kept, hruns, hallows, status_shows hruns hallows ⟨_, .tail _ (.head _), trivial⟩⟩

/-- A reply to another function than the one requested makes the operation fail and leaves the
engine as healthy as after a success. -/
theorem status_misses_misreply :
    let net : Tcp.Transport :=
      { settings := { host := "plc", port := 502 }, host := .v4 [10, 0, 0, 7], stream := some 1
        connection := .connected }
    let engine : Engine := ⟨⟨0x2A⟩, .tcp, 0⟩
    let error : RequestError := .badResponse (.unexpectedFunction 3 4)
    ∃ history after, ((Use.perform (.readInputRegisters 0 1)).thenStatus engine).Runs history
        (.error error, ⟨.on, none⟩) ∧
      undisturbed.Allows (.tcp net) history after ∧ (∃ step ∈ history, step.call.OnMedium) ∧
      ¬ Health.Tells ⟨.on, none⟩ (.error error : Except RequestError Unit) := by
  intro net engine error
  let kept : Transport := .tcp { net with health := ⟨.on, none⟩ }
  let history : List Action.Step :=
    [⟨.acquireTransport 0, .tcp net⟩,
      ⟨.transmit 1 [0x2A, 0, 0, 0, 0, 6, 0x2A, 4, 0, 0, 0, 1] net.settings.timeout, .ok ()⟩,
      ⟨.receive 1 512 net.settings.timeout, .ok [0x2A, 0, 0, 0, 0, 5, 0x2A, 3, 2, 0, 7]⟩,
      ⟨.releaseTransport 0 kept, ()⟩,
      ⟨.acquireTransport 0, kept⟩, ⟨.releaseTransport 0 kept, ()⟩,
      ⟨.acquireTransport 0, kept⟩, ⟨.releaseTransport 0 kept, ()⟩]
  have hruns : ((Use.perform (.readInputRegisters 0 1)).thenStatus engine).Runs history
      (.error error, ⟨.on, none⟩) := by
    refine .ask (.ask (.ask (.ask ?_)))
    exact .ask (.ask (.ask (.ask (.done _))))
  have hallows : undisturbed.Allows (.tcp net) history kept := by
    refine .cons ⟨rfl, rfl⟩ (.cons rfl (.cons rfl (.cons rfl ?_)))
    exact .cons ⟨rfl, rfl⟩ (.cons rfl (.cons ⟨rfl, rfl⟩ (.cons rfl (.nil _))))
  refine ⟨history, kept, hruns, hallows, ⟨_, .tail _ (.head _), trivial⟩, ?_⟩
  rintro ⟨hstate, -⟩
  exact nomatch hstate

end Engine

end ModbusMaster
