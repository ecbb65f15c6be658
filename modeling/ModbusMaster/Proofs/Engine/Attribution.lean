import ModbusMaster.Proofs.Engine.Outcome
import ModbusMaster.Proofs.Equipment.Delivery

/-!
Whose reply is accepted. The function echo, the length and, on a serial line, the check value of a
reply are looked at, but not the address of the node that it comes from: a reply is taken for the
same whichever node has sent it.
-/

namespace ModbusMaster

namespace Frame

variable {protocol : Protocol} {raw pdu : Bytes} {length : Nat} {check : CrcCheck}

theorem decode_eq_ok (h : decode protocol raw length check = .ok pdu) :
    pdu = (raw.drop (front protocol)).take length ∧ pdu.length = length := by
  have hdecoded := decoded protocol raw length check
  rw [h] at hdecoded
  cases hdecoded with
  | reply long => exact ⟨rfl, List.length_take_of_le long⟩

theorem decode_eq_exception {code : ExceptionCode}
    (h : decode protocol raw length check = .error (.exception code)) :
    ∃ echo byte rest, raw.drop (front protocol) = echo :: byte :: rest ∧ refuses echo ∧
      ExceptionCode.ofByte byte = code := by
  have hdecoded := decoded protocol raw length check
  rw [h] at hdecoded
  cases hdecoded with
  | refusal carried refused => exact ⟨_, _, _, carried, refused, rfl⟩

/-- Bytes that carry a PDU are taken for it, and so is a frame with that PDU from any node. -/
structure TakenFor (protocol : Protocol) (length : Nat) (check : CrcCheck) (raw pdu : Bytes)
    (result : Except RequestError Bytes) : Prop where
  carried : pdu <+: raw.drop (front protocol)
  taken : decode protocol raw length check = result
  anyNode : ∀ node, decode protocol (Server.replyFrame protocol node pdu) length check = result

theorem takenFor_of_ok {echo : UInt8} {data : Bytes}
    (h : decode protocol raw length check = .ok (echo :: data)) (hecho : refuses echo = false)
    (hleast : 2 ≤ length) (hmost : length ≤ 254) :
    TakenFor protocol length check raw (echo :: data) (.ok (echo :: data)) := by
  obtain ⟨hpdu, hlength⟩ := decode_eq_ok h
  rw [List.length_cons] at hlength
  refine ⟨?_, h, fun node => ?_⟩
  · rw [hpdu]
    exact List.take_prefix _ _
  · rw [← hlength]
    exact decode_replyFrame protocol hecho (by omega) (by omega)

theorem takenFor_of_exception {code : ExceptionCode}
    (h : decode protocol raw length check = .error (.exception code)) :
    ∃ echo byte, refuses echo ∧ ExceptionCode.ofByte byte = code ∧
      TakenFor protocol length check raw [echo, byte] (.error (.exception code)) := by
  obtain ⟨echo, byte, rest, hdrop, hecho, rfl⟩ := decode_eq_exception h
  refine ⟨echo, byte, hecho, rfl, ?_, h, fun node => ?_⟩
  · rw [hdrop]
    exact ⟨rest, rfl⟩
  · cases protocol with
    | rtu => exact decode_refusal hecho
    | tcp =>
      show (if refuses echo then _ else _) = _
      rw [if_pos hecho]

end Frame

namespace Operation

variable {operation : Operation} {request : Request Value}

/-- The reply to an operation fits in one frame and is long enough to be told from noise. -/
theorem replyLength_bounds (hdemand : operation.demand = .ok (.exchange request)) :
    2 ≤ request.replyLength ∧ request.replyLength ≤ 254 := by
  cases operation.demanded Image.blank with
  | refused _ demand =>
    rw [hdemand] at demand
    cases demand
  | exchange _ demand served =>
    rw [hdemand] at demand
    cases demand
    exact ⟨served.le_reply, served.reply_le⟩
  | broadcast _ demand =>
    rw [hdemand] at demand
    cases demand

theorem exchange_ne_broadcast {α : Type} {submitted : Except InvalidRequest α}
    {f : α → Request Value} {function : Function} {payload : Bytes} :
    (fun a => Demand.exchange (f a)) <$> submitted ≠ .ok (.broadcast function payload) := by
  cases submitted with
  | error cause => exact nofun
  | ok a => exact nofun

/-- There is one operation that asks no node in particular. -/
theorem eq_broadcastRegister {function : Function} {payload : Bytes}
    (hdemand : operation.demand = .ok (.broadcast function payload)) :
    ∃ address content, operation = .broadcastRegister address content := by
  cases operation with
  | broadcastRegister address content => exact ⟨address, content, rfl⟩
  | writeCoil | writeRegister | maskWriteRegister | readExceptionStatus | fetchEventCounter =>
    exact nomatch hdemand
  | _ => exact absurd hdemand exchange_ne_broadcast

end Operation

namespace Engine

variable {engine : Engine} {operation : Operation} {request : Request Value}

/-- What an operation returns, or the refusal it reports, was found in the bytes it has read,
whichever node they are from. -/
def Found (request : Request Value) (transport : Transport) (heard : Bytes) :
    Except RequestError Value → Prop
  | .ok value => ∃ data, Frame.TakenFor transport.protocol request.replyLength transport.crcCheck
      heard (request.function.code :: data) (.ok (request.function.code :: data)) ∧
      request.answer data = .ok value
  | .error (.exception code) => ∃ echo byte, refuses echo ∧ ExceptionCode.ofByte byte = code ∧
      Frame.TakenFor transport.protocol request.replyLength transport.crcCheck heard [echo, byte]
        (.error (.exception code))
  | .error _ => True

theorem found_of_outcome {transport : Transport} {heard : Bytes}
    {outcome : Except RequestError Bytes} (hleast : 2 ≤ request.replyLength)
    (hmost : request.replyLength ≤ 254)
    (h : Outcome transport.protocol request.replyLength transport.crcCheck heard outcome) :
    Found request transport heard
      (outcome.bind fun reply => (request.answerOf reply).mapError .badResponse) := by
  cases h with
  | refused cause => exact trivial
  | @failed error hclass =>
    cases error with
    | exception code => exact nomatch hclass
    | _ => exact trivial
  | decoded =>
    cases hdecode : Frame.decode transport.protocol heard request.replyLength
      transport.crcCheck with
    | error error =>
      cases error with
      | exception code => exact Frame.takenFor_of_exception hdecode
      | _ => exact trivial
    | ok reply =>
      show Found request transport heard ((request.answerOf reply).mapError .badResponse)
      cases hanswer : request.answerOf reply with
      | error cause => exact trivial
      | ok value =>
        cases reply with
        | nil => exact nomatch hanswer
        | cons echo data =>
          -- an answer is read behind the echo of the function only
          rw [Request.answerOf] at hanswer
          split at hanswer
          next hecho =>
            subst hecho
            exact ⟨data, Frame.takenFor_of_ok hdecode (refuses_code _) hleast hmost, hanswer⟩
          next => cases hanswer

theorem execute_found (hdemand : operation.demand = .ok (.exchange request))
    {history : List Action.Step} {result : Except RequestError Value}
    (hruns : (engine.execute request).Runs history result) :
    ∃ transport rest, history = ⟨.acquireTransport engine.transport, transport⟩ :: rest ∧
      Found request transport (Action.heard history) result := by
  simp only [execute, exchange, use, bind_assoc] at hruns
  obtain ⟨transport, rest, rfl, hrest⟩ := Action.runs_perform_bind_iff.mp hruns
  refine ⟨transport, rest, rfl, ?_⟩
  obtain ⟨hleast, hmost⟩ := Operation.replyLength_bounds hdemand
  show Found request transport (Action.heard rest) result
  refine @Action.Ensures.of_heard _ _
    (fun result heard => Found request transport heard result) ?_ _ _ hrest
  refine Transport.exchange_outcome.bind fun outcome heard h => ?_
  have hfound := found_of_outcome hleast hmost h
  refine Action.ensures_silent_bind trivial fun _ => ?_
  rcases outcome with ⟨error | reply, after⟩
  case error => exact hfound
  case ok => exact hfound

/-- What is returned was found in a reply, and no reply is told from another by the node it comes
from. An operation whose arguments do not pass their checks returns nothing and reads nothing. -/
theorem perform_any_node
    (hunicast : ∀ address content, operation ≠ .broadcastRegister address content)
    {history : List Action.Step} {result : Except RequestError Value}
    (hruns : (engine.perform operation).Runs history result) :
    (∃ cause, history = [] ∧ result = .error (.badRequest cause)) ∨
      ∃ request transport rest, operation.demand = .ok (.exchange request) ∧
        history = ⟨.acquireTransport engine.transport, transport⟩ :: rest ∧
        Found request transport (Action.heard history) result := by
  unfold perform at hruns
  split at hruns
  next cause _ =>
    cases hruns
    exact .inl ⟨cause, rfl, rfl⟩
  next request hdemand =>
    obtain ⟨transport, rest, hhistory, hfound⟩ := execute_found hdemand hruns
    exact .inr ⟨request, transport, rest, hdemand, hhistory, hfound⟩
  next function payload hdemand =>
    obtain ⟨address, content, rfl⟩ := Operation.eq_broadcastRegister hdemand
    exact absurd rfl (hunicast address content)

/-- A refusal by the node that was asked. -/
theorem perform_any_node_refused :
    let net : Tcp.Transport :=
      { settings := { host := "plc", port := 502 }, host := .v4 [10, 0, 0, 7], stream := some 1
        connection := .connected }
    let engine : Engine := ⟨⟨0x2A⟩, .tcp, 0⟩
    let result : Except RequestError Value := .error (.exception .illegalDataAddress)
    ∃ rest request, let history := ⟨.acquireTransport 0, .tcp net⟩ :: rest
      (engine.perform (.readHoldingRegisters 4 1)).Runs history result ∧
      Operation.demand (.readHoldingRegisters 4 1) = .ok (.exchange request) ∧
      Action.heard history = [0x2A, 0, 0, 0, 0, 3, 0x2A, 0x83, 2] ∧
      Found request (.tcp net) (Action.heard history) result := by
  intro net engine result
  let kept : Transport := .tcp { net with health := .after net.wording result }
  let rest : List Action.Step :=
    [⟨.transmit 1 [0x2A, 0, 0, 0, 0, 6, 0x2A, 3, 0, 4, 0, 1] net.settings.timeout, .ok ()⟩,
      ⟨.receive 1 512 net.settings.timeout, .ok [0x2A, 0, 0, 0, 0, 3, 0x2A, 0x83, 2]⟩,
      ⟨.releaseTransport 0 kept, ()⟩]
  have hruns : (engine.perform (.readHoldingRegisters 4 1)).Runs
      (⟨.acquireTransport 0, .tcp net⟩ :: rest) result := .ask (.ask (.ask (.ask (.done _))))
  obtain ⟨_, hnone, -⟩ | ⟨request, transport, rest', hdemand, hhistory, hfound⟩ :=
    perform_any_node (fun _ _ => by simp) hruns
  · cases hnone
  · cases hhistory
    exact ⟨rest, request, hruns, hdemand, rfl, hfound⟩

/-- A register of node 7 is taken for one of node 42, which was asked. -/
theorem perform_takes_other_node :
    let net : Tcp.Transport :=
      { settings := { host := "plc", port := 502 }, host := .v4 [10, 0, 0, 7], stream := some 1
        connection := .connected }
    let engine : Engine := ⟨⟨0x2A⟩, .tcp, 0⟩
    ∃ rest, let history := ⟨.acquireTransport 0, .tcp net⟩ :: rest
      (engine.perform (.readHoldingRegisters 4 1)).Runs history (.ok (.registers [9])) ∧
      Action.heard history = Server.replyFrame .tcp 7 [3, 2, 0, 9] ∧
      (Action.heard history)[0]? ≠ some engine.unit.value ∧
      (Action.heard history)[6]? ≠ some engine.unit.value := by
  intro net engine
  let kept : Transport := .tcp { net with health := ⟨.on, none⟩ }
  let rest : List Action.Step :=
    [⟨.transmit 1 [0x2A, 0, 0, 0, 0, 6, 0x2A, 3, 0, 4, 0, 1] net.settings.timeout, .ok ()⟩,
      ⟨.receive 1 512 net.settings.timeout, .ok [7, 0, 0, 0, 0, 5, 7, 3, 2, 0, 9]⟩,
      ⟨.releaseTransport 0 kept, ()⟩]
  have hruns : (engine.perform (.readHoldingRegisters 4 1)).Runs
      (⟨.acquireTransport 0, .tcp net⟩ :: rest) (.ok (.registers [9])) :=
    .ask (.ask (.ask (.ask (.done _))))
  exact ⟨rest, hruns, rfl, by decide, by decide⟩

end Engine

end ModbusMaster
