import ModbusMaster.Engine
import ModbusMaster.Proofs.Action.Calls
import ModbusMaster.Proofs.Engine.Outcome
import ModbusMaster.Proofs.Equipment.Delivery
import ModbusMaster.Proofs.Tcp.Session

/-!
What an exchange can do, on either medium and whatever the answers to its calls are. It concerns
the medium, the transport of its engine and the clock, and nothing else, unless it panics; and once
the frame is encoded, no result says that anything did not fit. Over TCP an attempt does not panic.
-/

namespace ModbusMaster

/-- The calls of exchanges. -/
def Call.OfExchange : Call → Prop
  | .acquireBus _ | .releaseBus _ | .flush _ | .write .. | .read .. => True
  | .connect .. | .transmit .. | .receive .. | .close _ => True
  | .acquireTransport _ | .releaseTransport .. => True
  | .now | .sleepUntil _ | .report _ | .appendLog .. | .panic _ => True
  | _ => False

/-- The calls of an attempt to deliver a frame over TCP and to read what comes back. -/
def Call.OfAttempt : Call → Prop
  | .connect .. | .transmit .. | .receive .. | .close _ | .now | .report _ => True
  | _ => False

namespace Action

variable {α : Type} {action : Action α} {post : α → Prop}

theorem Does.ofExchange (h : action.Does Call.OfAttempt post) :
    action.Does Call.OfExchange post := by
  refine h.mono_calls fun call hcall => ?_
  cases call with
  | connect | transmit | receive | close | now | report => trivial
  | _ => exact hcall.elim

end Action

/-- The error says that something did not fit: the arguments of a request, or the length of a
frame. -/
def RequestError.Misfit : RequestError → Prop
  | .badRequest _ | .badFrame (.frameTooBig ..) => True
  | _ => False

/-- A result does not say that something did not fit. -/
def Accepted {α : Type} : Except RequestError α → Prop
  | .ok _ => True
  | .error error => ¬ error.Misfit

theorem Accepted.ne_badRequest {α : Type} {result : Except RequestError α} (h : Accepted result)
    (cause : InvalidRequest) : result ≠ .error (.badRequest cause) := by
  intro heq
  rw [heq] at h
  exact h trivial

theorem accepted_ofIo (kind : IoError) : ¬ (RequestError.ofIo kind).Misfit := by
  cases kind <;> exact id

theorem Tcp.OfMedium.accepted {error : RequestError} (h : OfMedium error) : ¬ error.Misfit := by
  cases h <;> exact id

theorem Frame.Tcp.decode_accepted (raw : Bytes) (length : Nat) : Accepted (decode raw length) := by
  unfold decode
  split
  · exact id
  · split
    · split
      · exact id
      · split
        · exact id
        · exact trivial
    · exact id

/-- A reply is too long for a frame only if too much was asked for. -/
theorem Frame.Rtu.decode_accepted {raw : Bytes} {length : Nat} {check : CrcCheck}
    (hlength : length ≤ 509) : Accepted (decode raw length check) := by
  unfold decode
  split
  · split
    · split <;> exact id
    · split
      next hlong =>
        rw [maxLength] at hlong
        omega
      next =>
        dsimp only
        split
        · split
          · exact trivial
          · exact id
        · exact id
  · exact id

/-- What an action is like that belongs to an exchange and ends in a result. -/
abbrev Action.Exchanges {α σ : Type} (action : Action (Except RequestError α × σ)) : Prop :=
  action.Does Call.OfExchange fun outcome => Accepted outcome.1

namespace Tcp.Transport

variable {transport : Transport} {frame : Bytes} {length : Nat}

theorem connect_does :
    transport.connect.Does Call.OfAttempt fun outcome => Accepted outcome.1 := by
  unfold connect
  split
  next => exact trivial
  next =>
    apply Action.does_perform_bind.mpr
    refine ⟨trivial, fun now => ?_⟩
    split
    next => exact ⟨trivial, fun _ => id⟩
    next =>
      apply Action.does_perform_bind.mpr
      refine ⟨trivial, fun start => ?_⟩
      apply Action.does_perform_bind.mpr
      refine ⟨trivial, fun outcome => ?_⟩
      cases outcome with
      | ok stream => exact ⟨trivial, fun _ => trivial⟩
      | error interruption =>
        exact ⟨trivial, fun _ => (ofMedium_connectError interruption).accepted⟩

theorem disconnect_does : transport.disconnect.Does Call.OfAttempt fun _ => True := by
  unfold disconnect
  split
  next => exact trivial
  next => exact ⟨trivial, fun _ => ⟨trivial, fun _ => trivial⟩⟩

theorem reportFrame_does {direction : Direction} :
    (transport.reportFrame direction frame).Does Call.OfAttempt fun _ => True :=
  Action.does_reportUnless trivial

theorem reportBytes_does {direction : Direction} {data : Bytes} :
    (transport.reportBytes direction data).Does Call.OfAttempt fun _ => True :=
  Action.does_reportUnless trivial

theorem writeFrame_does :
    (transport.writeFrame frame).Does Call.OfAttempt fun outcome => Accepted outcome.1 := by
  unfold writeFrame
  split
  next => exact id
  next =>
    apply reportFrame_does.bind
    intro _ _
    apply reportBytes_does.bind
    intro _ _
    apply Action.does_perform_bind.mpr
    refine ⟨trivial, fun outcome => ?_⟩
    cases outcome with
    | ok written => exact trivial
    | error interruption =>
      exact disconnect_does.bind fun _ _ => (ofMedium_exchangeError interruption).accepted

theorem readOnce_does :
    transport.readOnce.Does Call.OfAttempt fun outcome => Accepted outcome.1 := by
  unfold readOnce
  split
  next => exact id
  next =>
    apply Action.does_perform_bind.mpr
    refine ⟨trivial, fun outcome => ?_⟩
    cases outcome with
    | ok raw => exact reportBytes_does.bind fun _ _ => trivial
    | error interruption =>
      exact disconnect_does.bind fun _ _ => (ofMedium_exchangeError interruption).accepted

theorem attempt_does :
    (transport.attempt frame).Does Call.OfAttempt fun outcome => Accepted outcome.1 := by
  unfold attempt
  apply connect_does.bind
  intro outcome hconnected
  rcases outcome with ⟨connection, connected⟩
  cases connection with
  | error error => exact hconnected
  | ok _ =>
    apply writeFrame_does.bind
    intro outcome hwritten
    rcases outcome with ⟨written, transport'⟩
    cases written with
    | error error => exact hwritten
    | ok _ => exact readOnce_does

theorem acceptReply_exchanges {raw : Bytes} : (transport.acceptReply raw length).Exchanges := by
  have hdecode := Frame.Tcp.decode_accepted raw length
  unfold acceptReply
  apply (Action.does_require trivial).bind
  intro _ _
  split
  next reply _ => exact reportFrame_does.ofExchange.bind fun _ _ => trivial
  next heq =>
    rw [heq] at hdecode
    exact disconnect_does.ofExchange.bind fun _ _ => hdecode
  next error _ heq =>
    rw [heq] at hdecode
    exact hdecode

theorem awaitReconnect_does : transport.awaitReconnect.Does Call.OfExchange fun _ => True := by
  unfold awaitReconnect
  split
  next => exact trivial
  next =>
    apply (Action.does_require trivial).bind
    intro _ _
    exact Action.does_perform trivial fun _ => trivial

theorem exchangeFrame_exchanges : (transport.exchangeFrame frame length).Exchanges := by
  unfold exchangeFrame
  apply attempt_does.ofExchange.bind
  intro outcome hfirst
  rcases outcome with ⟨error | _ | ⟨byte, rest⟩, first⟩
  case error => exact hfirst
  case ok.cons => exact acceptReply_exchanges
  case ok.nil =>
    apply disconnect_does.ofExchange.bind
    intro closed _
    apply Action.does_perform_bind.mpr
    refine ⟨trivial, fun _ => ?_⟩
    apply awaitReconnect_does.bind
    intro _ _
    apply attempt_does.ofExchange.bind
    intro outcome hsecond
    rcases outcome with ⟨error | _ | ⟨byte, rest⟩, second⟩
    case error => exact hsecond
    case ok.nil => exact disconnect_does.ofExchange.bind fun _ _ => id
    case ok.cons => exact acceptReply_exchanges

theorem exchange_exchanges {unit : UnitId} {function : UInt8} {payload : Bytes}
    (hlength : payload.length ≤ 253) :
    (transport.exchange unit function payload length).Exchanges := by
  have hencode : Frame.Tcp.encode unit function payload =
      .ok (Frame.requestFrame .tcp unit function payload) := Frame.encode_eq_ok .tcp hlength
  unfold exchange
  rw [hencode]
  exact exchangeFrame_exchanges.bind fun _ hresult => hresult

theorem send_exchanges {unit : UnitId} {function : UInt8} {payload : Bytes}
    (hlength : payload.length ≤ 253) : (transport.send unit function payload).Exchanges := by
  have hencode : Frame.Tcp.encode unit function payload =
      .ok (Frame.requestFrame .tcp unit function payload) := Frame.encode_eq_ok .tcp hlength
  unfold send
  rw [hencode]
  apply connect_does.ofExchange.bind
  intro outcome hconnected
  rcases outcome with ⟨connection, connected⟩
  cases connection with
  | error error => exact hconnected
  | ok _ => exact writeFrame_does.ofExchange.bind fun _ hwritten => hwritten

end Tcp.Transport

namespace Serial.Transport

variable {transport : Transport} {frame : Bytes} {length : Nat}

theorem reportFrame_does {direction : Direction} :
    (transport.reportFrame direction frame).Does Call.OfExchange fun _ => True :=
  Action.does_reportUnless trivial

theorem reportBytes_does {direction : Direction} {data : Bytes} :
    (transport.reportBytes direction data).Does Call.OfExchange fun _ => True :=
  Action.does_reportUnless trivial

theorem writeFrame_does : (transport.writeFrame frame).Does Call.OfExchange Accepted := by
  unfold writeFrame
  apply Action.does_perform_bind.mpr
  refine ⟨trivial, fun outcome => ?_⟩
  cases outcome with
  | error kind => exact accepted_ofIo kind
  | ok _ =>
    apply reportFrame_does.bind
    intro _ _
    apply reportBytes_does.bind
    intro _ _
    apply Action.does_perform_bind.mpr
    refine ⟨trivial, fun outcome => ?_⟩
    cases outcome with
    | error kind => exact accepted_ofIo kind
    | ok _ => exact trivial

theorem logFailure_does {α : Type} {sent received : Bytes} {result : Except RequestError α} :
    (transport.logFailure sent received result).Does Call.OfExchange fun _ => True := by
  unfold logFailure
  split
  next =>
    apply Action.does_perform_bind.mpr
    refine ⟨trivial, fun outcome => ?_⟩
    cases outcome with
    | some reason => exact ⟨trivial, fun _ => trivial⟩
    | none => exact trivial
  next => exact trivial

theorem settle_exchanges {received : Bytes} (hreply : length ≤ 509) :
    (transport.settle received length).Exchanges := by
  have hdecode : Accepted (Frame.Rtu.decode received length transport.options.crcCheck) :=
    Frame.Rtu.decode_accepted hreply
  apply reportBytes_does.bind
  intro _ _
  split
  next error heq =>
    rw [heq] at hdecode
    exact hdecode
  next reply _ => exact reportFrame_does.bind fun _ _ => trivial

theorem exchangeFrame_exchanges (hreply : length ≤ 509) :
    (transport.exchangeFrame frame length).Exchanges := by
  unfold exchangeFrame
  apply writeFrame_does.bind
  intro written hwritten
  cases written with
  | error error => exact hwritten
  | ok _ =>
    apply Action.does_perform_bind.mpr
    refine ⟨trivial, fun outcome => ?_⟩
    cases outcome with
    | error kind => exact accepted_ofIo kind
    | ok head =>
      rcases head with _ | ⟨node, _ | ⟨echo, tail⟩⟩
      case nil => exact reportBytes_does.bind fun _ _ => id
      case cons.nil => exact reportBytes_does.bind fun _ _ => id
      case cons.cons =>
        apply Action.does_perform_bind.mpr
        refine ⟨trivial, fun outcome => ?_⟩
        cases outcome with
        | error kind => exact accepted_ofIo kind
        | ok rest =>
          dsimp only
          split
          next => exact ⟨trivial, fun _ => settle_exchanges hreply⟩
          next => exact settle_exchanges hreply

theorem send_exchanges {unit : UnitId} {function : UInt8} {payload : Bytes}
    (hlength : payload.length ≤ 253) : (transport.send unit function payload).Exchanges := by
  have hencode : Frame.Rtu.encode unit function payload =
      .ok (Frame.requestFrame .rtu unit function payload) := Frame.encode_eq_ok .rtu hlength
  unfold send
  rw [hencode]
  apply Action.does_perform_bind.mpr
  refine ⟨trivial, fun _ => ?_⟩
  apply writeFrame_does.bind
  intro written hwritten
  apply Action.does_perform_bind.mpr
  refine ⟨trivial, fun _ => ?_⟩
  exact logFailure_does.bind fun _ _ => hwritten

theorem exchange_exchanges {unit : UnitId} {function : UInt8} {payload : Bytes}
    (hlength : payload.length ≤ 253) (hreply : length ≤ 509) :
    (transport.exchange unit function payload length).Exchanges := by
  have hencode : Frame.Rtu.encode unit function payload =
      .ok (Frame.requestFrame .rtu unit function payload) := Frame.encode_eq_ok .rtu hlength
  unfold exchange
  rw [hencode]
  apply Action.does_perform_bind.mpr
  refine ⟨trivial, fun _ => ?_⟩
  apply (exchangeFrame_exchanges hreply).bind
  intro outcome hresult
  apply Action.does_perform_bind.mpr
  refine ⟨trivial, fun _ => ?_⟩
  exact logFailure_does.bind fun _ _ => hresult

end Serial.Transport

namespace Transport

variable {transport : Transport} {unit : UnitId} {function : UInt8} {payload : Bytes} {length : Nat}

theorem send_exchanges (hlength : payload.length ≤ 253) :
    (transport.send unit function payload).Exchanges := by
  cases transport with
  | rtu serial => exact (Serial.Transport.send_exchanges hlength).bind fun _ hresult => hresult
  | tcp net => exact (Tcp.Transport.send_exchanges hlength).bind fun _ hresult => hresult

theorem exchange_exchanges (hlength : payload.length ≤ 253) (hreply : length ≤ 509) :
    (transport.exchange unit function payload length).Exchanges := by
  cases transport with
  | rtu serial =>
    exact (Serial.Transport.exchange_exchanges hlength hreply).bind fun _ hresult => hresult
  | tcp net => exact (Tcp.Transport.exchange_exchanges hlength).bind fun _ hresult => hresult

end Transport

namespace Engine

variable {α : Type} {engine : Engine} {history : List Action.Step}

/-- Nothing but the turn is added to what is done with the transport. -/
theorem use_does {work : Transport → Action (Except RequestError α × Transport)}
    (h : ∀ transport, (work transport).Exchanges) :
    (engine.use work).Does Call.OfExchange Accepted := by
  apply Action.does_perform_bind.mpr
  refine ⟨trivial, fun transport => ?_⟩
  exact (h transport).bind fun _ hresult => ⟨trivial, fun _ => hresult⟩

theorem sendTo_does {unit : UnitId} {function : UInt8} {payload : Bytes}
    (hlength : payload.length ≤ 253) :
    (engine.sendTo unit function payload).Does Call.OfExchange Accepted :=
  use_does fun _ => Transport.send_exchanges hlength

theorem exchange_does {function : UInt8} {payload : Bytes} {length : Nat}
    (hlength : payload.length ≤ 253) (hreply : length ≤ 509) :
    (engine.exchange function payload length).Does Call.OfExchange Accepted :=
  use_does fun _ => Transport.exchange_exchanges hlength hreply

/-- What an engine makes of a reply is the answer that the request finds in it. -/
theorem execute_does {request : Request α} (h : request.Sized) :
    (engine.execute request).Does Call.OfExchange fun result =>
      Accepted result ∧
        ∀ value, result = .ok value → ∃ reply, request.answerOf reply = .ok value := by
  have hreply : request.replyLength ≤ 509 := Nat.le_trans h.reply_le (by decide)
  apply (exchange_does h.payload_le hreply).bind
  intro result hresult
  cases result with
  | error error => exact ⟨hresult, fun value heq => nomatch heq⟩
  | ok reply =>
    show Accepted _ ∧ ∀ value, _ = _ → _
    cases hanswer : request.answerOf reply with
    | error error => exact ⟨id, fun value heq => nomatch heq⟩
    | ok answer =>
      refine ⟨trivial, fun value heq => ⟨reply, ?_⟩⟩
      cases heq
      exact hanswer

end Engine

end ModbusMaster
