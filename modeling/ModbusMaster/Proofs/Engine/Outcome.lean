import ModbusMaster.Engine
import ModbusMaster.Proofs.Action.Environment

/-!
What an exchange comes to, on either medium and whatever the answers to its calls are: it fails on
the medium, or its result is what the decoder makes of the bytes that were read.
-/

namespace ModbusMaster

/-- Calls that read nothing. -/
def Call.Silent : Call → Prop
  | .read .. | .receive .. => False
  | _ => True

/-- Calls that put nothing on the medium, read nothing from it and concern no transport. -/
def Call.Mute : Call → Prop
  | .write .. | .transmit .. | .read .. | .receive .. | .acquireTransport _
  | .releaseTransport .. => False
  | _ => True

theorem Call.Mute.silent {call : Call} (h : call.Mute) : call.Silent := by
  cases call with
  | read | receive => exact h.elim
  | _ => trivial

namespace Action

/-- The bytes that a call was answered by. -/
def Step.bytes : Step → Bytes
  | ⟨.read _ _, .ok bytes⟩ => bytes
  | ⟨.receive _ _ _, .ok bytes⟩ => bytes
  | _ => []

/-- The bytes that all reads of a history gave. -/
def heard (history : List Step) : Bytes :=
  history.flatMap Step.bytes

/-- Any answers; the state is what was read. -/
def hears : Environment Bytes := fun before step after => after = before ++ step.bytes

variable {α β : Type} {before : Bytes}

theorem bytes_of_silent {step : Step} (h : step.call.Silent) : step.bytes = [] := by
  obtain ⟨call, answer⟩ := step
  cases call with
  | read | receive => exact h.elim
  | _ => rfl

theorem allows_hears (before : Bytes) (history : List Step) :
    hears.Allows before history (before ++ heard history) := by
  induction history generalizing before with
  | nil =>
    rw [heard, List.flatMap_nil, List.append_nil]
    exact .nil before
  | cons step rest ih =>
    have hrest := ih (before ++ step.bytes)
    rw [List.append_assoc] at hrest
    exact .cons rfl hrest

theorem Ensures.of_heard {action : Action α} {post : α → Bytes → Prop}
    (h : action.Ensures hears post []) {history : List Step} {result : α}
    (hruns : action.Runs history result) : post result (heard history) :=
  ensures_iff.mp h _ _ _ hruns (allows_hears [] history)

theorem ensures_hears_bind {call : Call} {next : call.Answer → Action β} {post : β → Bytes → Prop}
    (h : ∀ answer, (next answer).Ensures hears post (before ++ (Step.mk call answer).bytes)) :
    (perform call >>= next).Ensures hears post before := by
  intro answer after hafter
  rw [hafter]
  exact h answer

theorem ensures_silent_bind {call : Call} {next : call.Answer → Action β} {post : β → Bytes → Prop}
    (hcall : call.Silent) (h : ∀ answer, (next answer).Ensures hears post before) :
    (perform call >>= next).Ensures hears post before := by
  refine ensures_hears_bind fun answer => ?_
  rw [bytes_of_silent hcall, List.append_nil]
  exact h answer

theorem Does.silent {action : Action α} {post : α → Prop} (h : action.Does Call.Mute post) :
    action.Does Call.Silent post :=
  h.mono_calls fun _ => Call.Mute.silent

theorem Does.keeps_heard {action : Action α} {post : α → Prop} (h : action.Does Call.Silent post) :
    action.Ensures hears (fun result after => post result ∧ after = before) before := by
  induction action with
  | done result => exact ⟨h, rfl⟩
  | ask call rest ih =>
    intro answer after hafter
    rw [hafter, bytes_of_silent h.1, List.append_nil]
    exact ih answer (h.2 answer)

theorem Does.heard_bind {action : Action α} {next : α → Action β} {middle : α → Prop}
    {post : β → Bytes → Prop} (h : action.Does Call.Silent middle)
    (hnext : ∀ result, middle result → (next result).Ensures hears post before) :
    (action >>= next).Ensures hears post before := by
  refine h.keeps_heard.bind fun result after hafter => ?_
  rw [hafter.2]
  exact hnext result hafter.1

end Action

/-- If there is an error, the medium is to blame. -/
def Undisturbed {α : Type} : Except RequestError α → Prop
  | .ok _ => True
  | .error error => error.errorClass = .transport

theorem errorClass_ofIo (kind : IoError) : (RequestError.ofIo kind).errorClass = .transport := by
  cases kind <;> rfl

namespace Frame

/-- How many bytes of a reply stand in front of the function echo. -/
def front : Protocol → Nat
  | .rtu => 1
  | .tcp => Tcp.headerLength

/-- What the decoder can make of the bytes of a reply. -/
inductive Decoded (protocol : Protocol) (raw : Bytes) (length : Nat) :
    Except RequestError Bytes → Prop where
  | malformed (cause : FrameError) : Decoded protocol raw length (.error (.badFrame cause))
  | refusal {echo byte : UInt8} {rest : Bytes}
      (carried : raw.drop (front protocol) = echo :: byte :: rest) (refused : refuses echo) :
      Decoded protocol raw length (.error (.exception (.ofByte byte)))
  | reply (long : length ≤ (raw.drop (front protocol)).length) :
      Decoded protocol raw length (.ok ((raw.drop (front protocol)).take length))

theorem Rtu.decoded (raw : Bytes) (length : Nat) (check : CrcCheck) :
    Decoded .rtu raw length (decode raw length check) := by
  unfold decode
  split
  next node echo rest =>
    split
    next hecho =>
      cases rest with
      | nil => exact .malformed _
      | cons byte rest => exact .refusal rfl hecho
    next =>
      split
      next => exact .malformed _
      next =>
        dsimp only
        split
        next low high extra hcheck =>
          split
          next =>
            -- the check value stands behind the reply, so all of that is there
            have hlong := congrArg List.length hcheck
            simp only [List.length_drop, List.length_cons] at hlong
            rw [List.drop_take, Nat.add_sub_cancel]
            refine .reply ?_
            simp only [front, List.length_drop, List.length_cons]
            omega
          next => exact .malformed _
        next => exact .malformed _
  next => exact .malformed _

theorem Tcp.decoded (raw : Bytes) (length : Nat) :
    Decoded .tcp raw length (decode raw length) := by
  unfold decode
  split
  next => exact .malformed _
  next =>
    split
    next echo byte rest hdrop =>
      split
      next hecho => exact .refusal hdrop hecho
      next =>
        split
        next => exact .malformed _
        next hlong =>
          refine .reply ?_
          rw [front, List.length_drop]
          omega
    next => exact .malformed _

theorem decoded (protocol : Protocol) (raw : Bytes) (length : Nat) (check : CrcCheck) :
    Decoded protocol raw length (decode protocol raw length check) := by
  cases protocol with
  | rtu => exact Rtu.decoded raw length check
  | tcp => exact Tcp.decoded raw length

end Frame

/-- What an exchange can end in when it has read some bytes. -/
inductive Outcome (protocol : Protocol) (length : Nat) (check : CrcCheck) (heard : Bytes) :
    Except RequestError Bytes → Prop where
  | refused (cause : InvalidRequest) :
      Outcome protocol length check heard (.error (.badRequest cause))
  | failed {error : RequestError} (h : error.errorClass = .transport) :
      Outcome protocol length check heard (.error error)
  | decoded : Outcome protocol length check heard (Frame.decode protocol heard length check)

namespace Serial.Transport

variable {transport : Transport} {frame : Bytes} {direction : Direction} {length : Nat}

theorem reportFrame_mute :
    (transport.reportFrame direction frame).Does Call.Mute fun _ => True :=
  Action.does_reportUnless trivial

theorem reportBytes_mute :
    (transport.reportBytes direction frame).Does Call.Mute fun _ => True :=
  Action.does_reportUnless trivial

theorem writeFrame_silent : (transport.writeFrame frame).Does Call.Silent Undisturbed := by
  unfold writeFrame
  refine ⟨trivial, fun flushed => ?_⟩
  cases flushed with
  | error kind => exact errorClass_ofIo kind
  | ok _ =>
    refine reportFrame_mute.silent.bind fun _ _ => reportBytes_mute.silent.bind fun _ _ => ?_
    refine ⟨trivial, fun written => ?_⟩
    cases written with
    | error kind => exact errorClass_ofIo kind
    | ok _ => exact trivial

theorem logFailure_mute {α : Type} {sent received : Bytes} {result : Except RequestError α} :
    (transport.logFailure sent received result).Does Call.Mute fun _ => True := by
  unfold logFailure
  split
  next =>
    refine ⟨trivial, fun outcome => ?_⟩
    cases outcome with
    | none => exact trivial
    | some reason => exact ⟨trivial, fun _ => trivial⟩
  next => exact trivial

/-- The end of an exchange, when all was read. -/
def settle (transport : Transport) (received : Bytes) (length : Nat) :
    Action (Except RequestError Bytes × Bytes) := do
  transport.reportBytes .received received
  match Frame.Rtu.decode received length transport.options.crcCheck with
  | .error error => return (.error error, received)
  | .ok reply =>
      transport.reportFrame .received received
      return (.ok reply, received)

theorem settle_outcome {received : Bytes} :
    (transport.settle received length).Ensures Action.hears
      (fun outcome heard => Outcome .rtu length transport.options.crcCheck heard outcome.1)
      received := by
  have hdecoded : Outcome .rtu length transport.options.crcCheck received
      (Frame.Rtu.decode received length transport.options.crcCheck) := .decoded
  refine reportBytes_mute.silent.heard_bind fun _ _ => ?_
  split
  next error heq =>
    rw [heq] at hdecoded
    exact hdecoded
  next reply heq =>
    rw [heq] at hdecoded
    exact reportFrame_mute.silent.heard_bind fun _ _ => hdecoded

theorem exchangeFrame_outcome :
    (transport.exchangeFrame frame length).Ensures Action.hears
      (fun outcome heard => Outcome .rtu length transport.options.crcCheck heard outcome.1) [] := by
  unfold exchangeFrame
  refine writeFrame_silent.heard_bind fun written hwritten => ?_
  cases written with
  | error error => exact .failed hwritten
  | ok _ =>
    refine Action.ensures_hears_bind fun first => ?_
    cases first with
    | error kind => exact .failed (errorClass_ofIo kind)
    | ok head =>
      rcases head with _ | ⟨node, _ | ⟨echo, tail⟩⟩
      case nil => exact reportBytes_mute.silent.heard_bind fun _ _ => .failed rfl
      case cons.nil => exact reportBytes_mute.silent.heard_bind fun _ _ => .failed rfl
      case cons.cons =>
        -- what is decoded in the end are the bytes of both reads
        refine Action.ensures_hears_bind fun second => ?_
        cases second with
        | error kind => exact .failed (errorClass_ofIo kind)
        | ok rest =>
          dsimp only
          split
          next => exact Action.ensures_silent_bind trivial fun _ => settle_outcome
          next => exact settle_outcome

theorem exchange_outcome {unit : UnitId} {function : UInt8} {payload : Bytes} :
    (transport.exchange unit function payload length).Ensures Action.hears
      (fun outcome heard => Outcome .rtu length transport.options.crcCheck heard outcome.1) [] := by
  unfold exchange
  split
  next cause _ => exact .refused cause
  next frame _ =>
    refine Action.ensures_silent_bind trivial fun _ => ?_
    refine exchangeFrame_outcome.bind fun outcome heard h => ?_
    exact Action.ensures_silent_bind trivial fun _ => logFailure_mute.silent.heard_bind fun _ _ => h

end Serial.Transport

namespace Tcp.Transport

variable {transport : Transport} {frame raw : Bytes} {direction : Direction} {length : Nat}

theorem errorClass_connectError (interruption : Interruption) :
    (connectError interruption).errorClass = .transport := by
  cases interruption with
  | elapsed => rfl
  | failed kind => exact errorClass_ofIo kind

theorem errorClass_exchangeError (interruption : Interruption) :
    (exchangeError interruption).errorClass = .transport := by
  cases interruption with
  | elapsed => rfl
  | failed kind => exact errorClass_ofIo kind

theorem reportFrame_mute :
    (transport.reportFrame direction frame).Does Call.Mute fun _ => True :=
  Action.does_reportUnless trivial

theorem reportBytes_mute :
    (transport.reportBytes direction frame).Does Call.Mute fun _ => True :=
  Action.does_reportUnless trivial

theorem connect_mute :
    transport.connect.Does Call.Mute fun outcome => Undisturbed outcome.1 := by
  unfold connect
  split
  next => exact trivial
  next =>
    refine Action.does_perform_bind.mpr ⟨trivial, fun now => ?_⟩
    split
    next => exact ⟨trivial, fun _ => rfl⟩
    next =>
      refine Action.does_perform_bind.mpr ⟨trivial, fun start => ?_⟩
      refine Action.does_perform_bind.mpr ⟨trivial, fun outcome => ?_⟩
      cases outcome with
      | ok stream => exact ⟨trivial, fun _ => trivial⟩
      | error interruption =>
        exact ⟨trivial, fun _ => errorClass_connectError interruption⟩

theorem disconnect_mute : transport.disconnect.Does Call.Mute fun _ => True := by
  unfold disconnect
  split
  next => exact trivial
  next => exact ⟨trivial, fun _ => ⟨trivial, fun _ => trivial⟩⟩

theorem writeFrame_silent :
    (transport.writeFrame frame).Does Call.Silent fun outcome => Undisturbed outcome.1 := by
  unfold writeFrame
  split
  next => exact rfl
  next =>
    refine reportFrame_mute.silent.bind fun _ _ => reportBytes_mute.silent.bind fun _ _ => ?_
    refine ⟨trivial, fun outcome => ?_⟩
    cases outcome with
    | ok _ => exact trivial
    | error interruption =>
      exact disconnect_mute.silent.bind fun _ _ => errorClass_exchangeError interruption

/-- A read gives all that was read, or fails on the medium. -/
def Gives (outcome : Except RequestError Bytes × Transport) (heard : Bytes) : Prop :=
  match outcome.1 with
  | .ok raw => heard = raw
  | .error error => error.errorClass = .transport

theorem readOnce_gives : transport.readOnce.Ensures Action.hears Gives [] := by
  unfold readOnce
  split
  next => exact rfl
  next =>
    refine Action.ensures_hears_bind fun outcome => ?_
    cases outcome with
    | ok raw => exact reportBytes_mute.silent.heard_bind fun _ _ => rfl
    | error interruption =>
      exact disconnect_mute.silent.heard_bind fun _ _ => errorClass_exchangeError interruption

theorem attempt_gives : (transport.attempt frame).Ensures Action.hears Gives [] := by
  unfold attempt
  refine connect_mute.silent.heard_bind fun outcome hconnected => ?_
  rcases outcome with ⟨connection, connected⟩
  cases connection with
  | error error => exact hconnected
  | ok _ =>
    refine writeFrame_silent.heard_bind fun outcome hwritten => ?_
    rcases outcome with ⟨written, transport'⟩
    cases written with
    | error error => exact hwritten
    | ok _ => exact readOnce_gives

theorem acceptReply_mute :
    (transport.acceptReply raw length).Does Call.Mute
      fun outcome => outcome.1 = Frame.Tcp.decode raw length := by
  unfold acceptReply
  apply (Action.does_require trivial).bind
  intro _ _
  split
  next reply heq => exact reportFrame_mute.bind fun _ _ => heq.symm
  next heq => exact disconnect_mute.bind fun _ _ => heq.symm
  next error _ heq => exact heq.symm

theorem acceptReply_outcome :
    (transport.acceptReply raw length).Ensures Action.hears
      (fun outcome heard => Outcome .tcp length .strict heard outcome.1) raw := by
  refine acceptReply_mute.silent.keeps_heard.mono fun outcome heard h => ?_
  rw [h.1, h.2]
  exact .decoded

theorem awaitReconnect_mute : transport.awaitReconnect.Does Call.Mute fun _ => True := by
  unfold awaitReconnect
  split
  next => exact trivial
  next =>
    apply (Action.does_require trivial).bind
    intro _ _
    exact Action.does_perform trivial fun _ => trivial

theorem exchangeFrame_outcome :
    (transport.exchangeFrame frame length).Ensures Action.hears
      (fun outcome heard => Outcome .tcp length .strict heard outcome.1) [] := by
  unfold exchangeFrame
  refine attempt_gives.bind fun outcome heard hfirst => ?_
  rcases outcome with ⟨error | _ | ⟨byte, rest⟩, first⟩
  case error => exact .failed hfirst
  case ok.cons =>
    rw [show heard = byte :: rest from hfirst]
    exact acceptReply_outcome
  case ok.nil =>
    -- the read that gave nothing leaves nothing behind, so the second round starts afresh
    rw [show heard = [] from hfirst]
    refine disconnect_mute.silent.heard_bind fun closed _ => ?_
    refine Action.ensures_silent_bind trivial fun _ => ?_
    refine awaitReconnect_mute.silent.heard_bind fun _ _ => ?_
    refine attempt_gives.bind fun outcome heard hsecond => ?_
    rcases outcome with ⟨error | _ | ⟨byte, rest⟩, second⟩
    case error => exact .failed hsecond
    case ok.nil => exact disconnect_mute.silent.heard_bind fun _ _ => .failed rfl
    case ok.cons =>
      rw [show heard = byte :: rest from hsecond]
      exact acceptReply_outcome

theorem exchange_outcome {unit : UnitId} {function : UInt8} {payload : Bytes} :
    (transport.exchange unit function payload length).Ensures Action.hears
      (fun outcome heard => Outcome .tcp length .strict heard outcome.1) [] := by
  unfold exchange
  split
  next cause _ => exact .refused cause
  next frame _ => exact exchangeFrame_outcome.bind fun outcome heard h => h

end Tcp.Transport

namespace Transport

/-- How strictly a transport compares check values; there are none on TCP. -/
def crcCheck : Transport → CrcCheck
  | rtu serial => serial.options.crcCheck
  | tcp _ => .strict

theorem exchange_outcome {transport : Transport} {unit : UnitId} {function : UInt8}
    {payload : Bytes} {length : Nat} :
    (transport.exchange unit function payload length).Ensures Action.hears
      (fun outcome heard =>
        Outcome transport.protocol length transport.crcCheck heard outcome.1) [] := by
  cases transport with
  | rtu serial => exact Serial.Transport.exchange_outcome.bind fun _ _ h => h
  | tcp net => exact Tcp.Transport.exchange_outcome.bind fun _ _ h => h

end Transport

end ModbusMaster
