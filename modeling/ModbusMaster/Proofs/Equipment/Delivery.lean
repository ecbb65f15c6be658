import ModbusMaster.Proofs.Equipment.Service
import ModbusMaster.Proofs.Frame.Corruption

/-!
Frames between master and equipment: what the master encodes the equipment reads, and what the
equipment replies the master decodes, in both framings.
-/

namespace ModbusMaster

namespace Frame

variable {unit : UnitId} {function : UInt8} {payload : Bytes}

/-- The frame of a request that is short enough for both framings. -/
def requestFrame (protocol : Protocol) (unit : UnitId) (function : UInt8) (payload : Bytes) :
    Bytes :=
  match protocol with
  | .rtu =>
      unit.value :: function :: payload ++
        littleEndian (Crc.of (unit.value :: function :: payload))
  | .tcp =>
      [unit.value, 0, 0, 0, 0, UInt8.ofNat (payload.length + 2), unit.value, function] ++ payload

theorem encode_eq_ok (protocol : Protocol) (h : payload.length ≤ 253) :
    encode protocol unit function payload = .ok (requestFrame protocol unit function payload) := by
  cases protocol with
  | rtu =>
    show Rtu.encode unit function payload = _
    rw [Rtu.encode, maxLength, if_neg (by omega)]
    rfl
  | tcp =>
    show Tcp.encode unit function payload = _
    rw [Tcp.encode, maxLength, Tcp.headerLength, if_neg (by omega), if_neg (by omega)]
    rfl

/-- The equipment reads the request in a frame. -/
theorem request?_requestFrame (protocol : Protocol) (h : payload.length ≤ 253) :
    Server.request? protocol (requestFrame protocol unit function payload) =
      some (unit.value, function :: payload) := by
  cases protocol with
  | rtu =>
    have hbody : (requestFrame .rtu unit function payload).take
        ((requestFrame .rtu unit function payload).length - 2) =
        unit.value :: function :: payload := by
      show List.take _ (unit.value :: function :: payload ++ littleEndian _) = _
      rw [List.take_left']
      simp [requestFrame]
    simp only [Server.request?, hbody]
    exact if_pos rfl
  | tcp =>
    have hlength : (UInt8.ofNat (payload.length + 2)).toNat = (function :: payload).length + 1 :=
      UInt8.toNat_ofNat_of_lt' (show payload.length + 2 < 256 by omega)
    exact if_pos ⟨rfl, hlength⟩

theorem accepts_self (check : CrcCheck) (calculated : UInt8 × UInt8) :
    Rtu.accepts check calculated calculated = true := by
  cases check <;> simp [Rtu.accepts]

/-- The master finds a reply of the expected length in its frame, whichever check it makes. -/
theorem decode_replyFrame (protocol : Protocol) {check : CrcCheck} {node echo : UInt8}
    {data : Bytes} (hecho : refuses echo = false) (hdata : 1 ≤ data.length)
    (hlength : data.length ≤ 253) :
    decode protocol (Server.replyFrame protocol node (echo :: data)) (data.length + 1) check =
      .ok (echo :: data) := by
  cases protocol with
  | rtu =>
    have hfits : ¬ maxLength < data.length + 4 := by
      rw [maxLength]
      omega
    have hself := accepts_self check (Rtu.checkBytes (node :: echo :: data))
    exact (decode_rtu_parts hecho).trans ((if_neg hfits).trans (if_pos hself))
  | tcp =>
    -- less than nine bytes are no frame, so a reply without data would be refused
    obtain ⟨code, rest, rfl⟩ := List.exists_cons_of_length_pos hdata
    show Tcp.decode
      ([node, 0, 0, 0, 0, UInt8.ofNat (rest.length + 3), node] ++ echo :: code :: rest) _ = _
    generalize hraw : [node, 0, 0, 0, 0, UInt8.ofNat (rest.length + 3), node] ++
      echo :: code :: rest = raw
    have hlength : raw.length = rest.length + 9 := by
      rw [← hraw]
      rfl
    have hdrop : raw.drop Tcp.headerLength = echo :: code :: rest := by
      rw [← hraw]
      rfl
    rw [Tcp.decode, if_neg (by rw [hlength, Tcp.minReplyLength]; omega), hdrop]
    simp only [hecho, Bool.false_eq_true, if_false]
    rw [if_neg (by rw [hlength, Tcp.headerLength, List.length_cons]; omega)]
    exact congrArg Except.ok (List.take_length (l := echo :: code :: rest))

end Frame

/-- No function of a request carries the mark of a refusal. -/
theorem refuses_code (function : Function) : refuses function.code = false := by
  cases function <;> rfl

namespace Request.Served

variable {α : Type} {request : Request α} {image after : Image} {value : α}

/-- A request to the equipment comes back as a reply that the master decodes and that answers it. -/
theorem delivered (h : request.Served image value after) (protocol : Protocol)
    (check : CrcCheck) {unit : UnitId} (hunit : unit.value ≠ 0) :
    ∃ data, (Equipment.mk unit.value image).receive protocol
        (Frame.requestFrame protocol unit request.function.code request.payload) =
      (Server.replyFrame protocol unit.value (request.function.code :: data),
        ⟨unit.value, after⟩) ∧
      data.length + 1 = request.replyLength ∧
      Frame.decode protocol (Server.replyFrame protocol unit.value (request.function.code :: data))
        request.replyLength check = .ok (request.function.code :: data) ∧
      request.answerOf (request.function.code :: data) = .ok value := by
  obtain ⟨⟨data, hhandle, hlength, hanswer⟩, hpayload, hleast, hmost⟩ := h
  refine ⟨data, ?_, hlength, ?_, ?_⟩
  · simp only [Equipment.receive, Frame.request?_requestFrame protocol hpayload, if_neg hunit,
      if_pos, Server.execute, hhandle]
  · rw [← hlength]
    exact Frame.decode_replyFrame protocol (refuses_code _) (by omega) (by omega)
  · rw [answerOf, if_pos rfl, hanswer]

/-- A request to every node is executed and not answered. -/
theorem broadcasted (h : request.Served image value after) (protocol : Protocol) (node : UInt8) :
    (Equipment.mk node image).receive protocol
        (Frame.requestFrame protocol UnitId.broadcast request.function.code request.payload) =
      ([], ⟨node, after⟩) := by
  obtain ⟨⟨data, hhandle, -, -⟩, hpayload, -, -⟩ := h
  have hbroadcast : UnitId.broadcast.value = 0 := rfl
  simp only [Equipment.receive, Frame.request?_requestFrame protocol hpayload, hbroadcast,
    if_pos, Server.execute, hhandle]

end Request.Served

end ModbusMaster
