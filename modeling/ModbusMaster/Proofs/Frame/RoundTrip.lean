import ModbusMaster.Proofs.Equipment.Delivery

/-!
What the encoder writes the decoder reads back, and a serial reply is decoded exactly when it is
what the encoder writes. The loose check value lets one of the last two bytes differ.
-/

namespace ModbusMaster.Frame

variable {unit : UnitId} {function : UInt8} {payload frame raw pdu extra : Bytes} {n : Nat}

/-- The longest payload that fits in a frame. -/
def maxPayload : Protocol → Nat
  | .rtu => 508
  | .tcp => 253

theorem encode_eq_ok_iff (protocol : Protocol) :
    encode protocol unit function payload = .ok frame ↔
      payload.length ≤ maxPayload protocol ∧
        frame = requestFrame protocol unit function payload := by
  cases protocol with
  | rtu =>
    show Rtu.encode unit function payload = .ok frame ↔ payload.length ≤ 508 ∧ _
    by_cases h : payload.length ≤ 508
    · have hfits : ¬ maxLength < payload.length + 4 := by
        rw [maxLength]
        omega
      rw [Rtu.encode, if_neg hfits, Except.ok.injEq]
      exact ⟨fun heq => ⟨h, heq.symm⟩, fun heq => heq.2.symm⟩
    · have hlong : maxLength < payload.length + 4 := by
        rw [maxLength]
        omega
      rw [Rtu.encode, if_pos hlong]
      constructor
      · intro heq
        cases heq
      · intro heq
        exact absurd heq.1 h
  | tcp =>
    show Tcp.encode unit function payload = .ok frame ↔ payload.length ≤ 253 ∧ _
    by_cases h : payload.length ≤ 253
    · have hencode : Tcp.encode unit function payload =
          .ok (requestFrame .tcp unit function payload) := encode_eq_ok .tcp h
      rw [hencode, Except.ok.injEq]
      exact ⟨fun heq => ⟨h, heq.symm⟩, fun heq => heq.2.symm⟩
    · -- the length byte counts the function and the second node address too
      simp only [Tcp.encode]
      rw [if_pos (by omega)]
      constructor
      · intro heq
        cases heq
      · intro heq
        exact absurd heq.1 h

theorem exists_encode_iff (protocol : Protocol) :
    (∃ frame, encode protocol unit function payload = .ok frame) ↔
      payload.length ≤ maxPayload protocol := by
  constructor
  · intro h
    obtain ⟨frame, hframe⟩ := h
    exact ((encode_eq_ok_iff protocol).mp hframe).1
  · intro h
    exact ⟨_, (encode_eq_ok_iff protocol).mpr ⟨h, rfl⟩⟩

/-- Unit, function and payload can be told from a frame. -/
theorem encode_injective {protocol : Protocol} {unit' : UnitId} {function' : UInt8}
    {payload' : Bytes} (h : encode protocol unit function payload = .ok frame)
    (h' : encode protocol unit' function' payload' = .ok frame) :
    unit = unit' ∧ function = function' ∧ payload = payload' := by
  obtain ⟨-, hframe⟩ := (encode_eq_ok_iff protocol).mp h
  obtain ⟨-, hframe'⟩ := (encode_eq_ok_iff protocol).mp h'
  have heq := hframe.symm.trans hframe'
  cases protocol with
  | rtu =>
    -- both check values have two bytes, so what stands before them is the same
    obtain ⟨hbody, -⟩ := List.append_inj' heq rfl
    injection hbody with hvalue hrest
    injection hrest with hfunction hpayload
    exact ⟨congrArg UnitId.mk hvalue, hfunction, hpayload⟩
  | tcp =>
    obtain ⟨hhead, hpayload⟩ := List.append_inj heq rfl
    simp only [List.cons.injEq] at hhead
    exact ⟨congrArg UnitId.mk hhead.1, hhead.2.2.2.2.2.2.2.1, hpayload⟩

/-! ### Serial replies -/

variable {node echo low high : UInt8} {data : Bytes} {check : CrcCheck}

/-- What follows the bytes that were asked for makes no difference. -/
theorem decode_rtu_append (hn : 1 ≤ n) (hraw : raw.length = n + 3) :
    Rtu.decode (raw ++ extra) n check = Rtu.decode raw n check := by
  obtain ⟨m, rfl⟩ := Nat.exists_eq_add_of_le' hn
  obtain ⟨node, echo, data, low, high, rfl, rfl⟩ := exists_frame_parts hraw
  by_cases hecho : refuses echo = true
  · -- a refusal is told from its third byte
    cases data with
    | nil => exact (decode_refusal hecho).trans (decode_refusal hecho).symm
    | cons code rest => exact (decode_refusal hecho).trans (decode_refusal hecho).symm
  · have hecho : refuses echo = false := by simpa using hecho
    rw [List.append_assoc]
    show Rtu.decode (node :: echo :: data ++ low :: high :: extra) _ _ = _
    rw [decode_rtu_parts hecho, decode_rtu_parts hecho]

theorem refuses_eq_false_iff {function : UInt8} : refuses function = false ↔ function < 0x80 := by
  rw [UInt8.lt_iff_toNat_lt, refuses, decide_eq_false_iff_not]
  exact Nat.not_le

/-- Whether a reply passes depends on its last two bytes, once its length and its function are
right. -/
theorem decode_rtu_eq_ok_iff (hn : 1 ≤ n) (hraw : raw.length = n + 3) :
    Rtu.decode raw n check = .ok pdu ↔
      ∃ node function payload low high,
        raw = node :: function :: payload ++ [low, high] ∧ function < 0x80 ∧
          payload.length ≤ 508 ∧ pdu = function :: payload ∧
          Rtu.accepts check (Rtu.checkBytes (node :: function :: payload)) (low, high) := by
  obtain ⟨m, rfl⟩ := Nat.exists_eq_add_of_le' hn
  constructor
  · intro h
    obtain ⟨node, echo, data, low, high, rfl, rfl⟩ := exists_frame_parts hraw
    have hecho : refuses echo = false := by
      cases hrefuses : refuses echo with
      | false => rfl
      | true =>
        have hcode : ∃ code rest, data ++ [low, high] = code :: rest := by
          cases data with
          | nil => exact ⟨low, [high], rfl⟩
          | cons code rest => exact ⟨code, rest ++ [low, high], rfl⟩
        obtain ⟨code, rest, hrest⟩ := hcode
        rw [List.cons_append, List.cons_append, hrest, decode_refusal hrefuses] at h
        cases h
    rw [decode_rtu_parts hecho] at h
    by_cases hfits : maxLength < data.length + 4
    · rw [if_pos hfits] at h
      cases h
    · rw [if_neg hfits] at h
      by_cases haccepts : Rtu.accepts check (Rtu.checkBytes (node :: echo :: data)) (low, high)
      · rw [if_pos haccepts] at h
        cases h
        have hlength : data.length ≤ 508 := by
          rw [maxLength] at hfits
          omega
        exact ⟨node, echo, data, low, high, rfl, refuses_eq_false_iff.mp hecho, hlength, rfl,
          haccepts⟩
      · rw [if_neg haccepts] at h
        cases h
  · intro h
    obtain ⟨node, function, payload, low, high, rfl, hfunction, hlength, rfl, haccepts⟩ := h
    have hm : payload.length = m := by
      simp only [List.length_append, List.length_cons, List.length_nil] at hraw
      omega
    subst hm
    have hfits : ¬ maxLength < payload.length + 4 := by
      rw [maxLength]
      omega
    rw [decode_rtu_parts (refuses_eq_false_iff.mpr hfunction), if_neg hfits, if_pos haccepts]

theorem accepts_strict_iff {calculated received : UInt8 × UInt8} :
    Rtu.accepts .strict calculated received ↔
      calculated.1 = received.1 ∧ calculated.2 = received.2 := by
  rw [Rtu.accepts, Bool.and_eq_true, beq_iff_eq, beq_iff_eq]

theorem accepts_legacy_iff {calculated received : UInt8 × UInt8} :
    Rtu.accepts .legacy calculated received ↔
      calculated.1 = received.1 ∨ calculated.2 = received.2 := by
  rw [Rtu.accepts, Bool.or_eq_true, beq_iff_eq, beq_iff_eq]

/-- Both byte strings are the same but for one of the last two bytes, if at all. -/
def ButOneCheckByte (raw frame : Bytes) : Prop :=
  raw.length = frame.length ∧
    ∃ i, (i + 1 = frame.length ∨ i + 2 = frame.length) ∧ ∀ j, j ≠ i → raw[j]? = frame[j]?

theorem getElem?_append_check {body : Bytes} (low high : UInt8) (j : Nat) :
    (body ++ [low, high])[j]? =
      if j < body.length then body[j]?
      else if j = body.length then some low
      else if j = body.length + 1 then some high
      else none := by
  by_cases hj : j < body.length
  · rw [if_pos hj, List.getElem?_append_left hj]
  · rw [if_neg hj, List.getElem?_append_right (Nat.le_of_not_lt hj)]
    obtain ⟨k, rfl⟩ := Nat.exists_eq_add_of_le (Nat.le_of_not_lt hj)
    rw [Nat.add_sub_cancel_left]
    match k with
    | 0 => simp
    | 1 => simp
    | k + 2 => rw [if_neg (by omega), if_neg (by omega)]; rfl

theorem butOneCheckByte_iff {body : Bytes} {low' high' : UInt8} :
    ButOneCheckByte raw (body ++ [low', high']) ↔
      ∃ low high, raw = body ++ [low, high] ∧ (low = low' ∨ high = high') := by
  constructor
  · intro h
    obtain ⟨hlength, i, hi, hsame⟩ := h
    rw [List.length_append, List.length_cons, List.length_cons, List.length_nil] at hlength hi
    have hdrop : (raw.drop body.length).length = 2 := by
      rw [List.length_drop]
      omega
    obtain ⟨low, high, hbytes⟩ := List.length_eq_two.mp hdrop
    -- all bytes before the last two are the same, so they are the body
    have htake : raw.take body.length = body := by
      apply List.ext_getElem?
      intro j
      rw [List.getElem?_take]
      by_cases hj : j < body.length
      · rw [if_pos hj, hsame j (by omega), List.getElem?_append_left hj]
      · rw [if_neg hj, List.getElem?_eq_none (Nat.le_of_not_lt hj)]
    have hraw : raw = body ++ [low, high] := by
      rw [← hbytes]
      conv_lhs => rw [← List.take_append_drop body.length raw, htake]
    subst hraw
    refine ⟨low, high, rfl, ?_⟩
    by_cases hlow : i = body.length
    · right
      have hhigh := hsame (body.length + 1) (by omega)
      simpa [getElem?_append_check] using hhigh
    · left
      have hlow := hsame body.length (Ne.symm hlow)
      simpa [getElem?_append_check] using hlow
  · intro h
    obtain ⟨low, high, rfl, hsame⟩ := h
    have hlength : (body ++ [low, high]).length = (body ++ [low', high']).length := by simp
    cases hsame with
    | inl heq =>
      refine ⟨hlength, body.length + 1, .inl (by simp), ?_⟩
      intro j hj
      rw [getElem?_append_check, getElem?_append_check, if_neg hj, if_neg hj, heq]
    | inr heq =>
      refine ⟨hlength, body.length, .inr (by simp), ?_⟩
      intro j hj
      rw [getElem?_append_check, getElem?_append_check, if_neg hj, if_neg hj, heq]

theorem encode_rtu_iff :
    encode .rtu unit function payload = .ok frame ↔ payload.length ≤ 508 ∧
      frame = unit.value :: function :: payload ++
        [(Rtu.checkBytes (unit.value :: function :: payload)).1,
          (Rtu.checkBytes (unit.value :: function :: payload)).2] :=
  encode_eq_ok_iff .rtu

/-- What is encoded is decoded again, whichever check is made. Less than nine bytes are no reply
over TCP, so a payload is needed there. -/
theorem decode_encode {protocol : Protocol} (h : encode protocol unit function payload = .ok frame)
    (hfunction : function < 0x80) (hpayload : protocol = .tcp → payload ≠ []) :
    decode protocol frame (payload.length + 1) check = .ok (function :: payload) := by
  obtain ⟨hlength, rfl⟩ := (encode_eq_ok_iff protocol).mp h
  have hecho := refuses_eq_false_iff.mpr hfunction
  cases protocol with
  | rtu =>
    have hfits : ¬ maxLength < payload.length + 4 := by
      have : payload.length ≤ 508 := hlength
      rw [maxLength]
      omega
    have hself := accepts_self check (Rtu.checkBytes (unit.value :: function :: payload))
    exact (decode_rtu_parts hecho).trans ((if_neg hfits).trans (if_pos hself))
  | tcp => exact decode_replyFrame .tcp hecho (List.length_pos_iff.mpr (hpayload rfl)) hlength

/-- The strict check passes what the encoder writes, and nothing else. -/
theorem decode_strict_iff (hn : 1 ≤ n) (hraw : raw.length = n + 3) :
    decode .rtu raw n .strict = .ok pdu ↔
      ∃ node function payload, raw.head? = some node ∧ function < 0x80 ∧
        pdu = function :: payload ∧ encode .rtu ⟨node⟩ function payload = .ok raw := by
  show Rtu.decode raw n .strict = .ok pdu ↔ _
  rw [decode_rtu_eq_ok_iff hn hraw]
  constructor
  · intro h
    obtain ⟨node, function, payload, low, high, rfl, hfunction, hlength, rfl, haccepts⟩ := h
    obtain ⟨hlow, hhigh⟩ := accepts_strict_iff.mp haccepts
    refine ⟨node, function, payload, rfl, hfunction, rfl, encode_rtu_iff.mpr ⟨hlength, ?_⟩⟩
    rw [hlow, hhigh]
  · intro h
    obtain ⟨node, function, payload, -, hfunction, rfl, hencode⟩ := h
    obtain ⟨hlength, rfl⟩ := encode_rtu_iff.mp hencode
    exact ⟨node, function, payload, _, _, rfl, hfunction, hlength, rfl, accepts_self _ _⟩

/-- The loose check passes what differs from it in one of the last two bytes as well. -/
theorem decode_legacy_iff (hn : 1 ≤ n) (hraw : raw.length = n + 3) :
    decode .rtu raw n .legacy = .ok pdu ↔
      ∃ node function payload frame, raw.head? = some node ∧ function < 0x80 ∧
        pdu = function :: payload ∧ encode .rtu ⟨node⟩ function payload = .ok frame ∧
        ButOneCheckByte raw frame := by
  show Rtu.decode raw n .legacy = .ok pdu ↔ _
  rw [decode_rtu_eq_ok_iff hn hraw]
  constructor
  · intro h
    obtain ⟨node, function, payload, low, high, rfl, hfunction, hlength, rfl, haccepts⟩ := h
    have hsame := (accepts_legacy_iff.mp haccepts).imp Eq.symm Eq.symm
    exact ⟨node, function, payload, _, rfl, hfunction, rfl, encode_rtu_iff.mpr ⟨hlength, rfl⟩,
      butOneCheckByte_iff.mpr ⟨low, high, rfl, hsame⟩⟩
  · intro h
    obtain ⟨node, function, payload, frame, -, hfunction, rfl, hencode, hbut⟩ := h
    obtain ⟨hlength, rfl⟩ := encode_rtu_iff.mp hencode
    obtain ⟨low, high, rfl, hsame⟩ := butOneCheckByte_iff.mp hbut
    have haccepts :
        Rtu.accepts .legacy (Rtu.checkBytes (node :: function :: payload)) (low, high) :=
      accepts_legacy_iff.mpr (hsame.imp Eq.symm Eq.symm)
    exact ⟨node, function, payload, low, high, rfl, hfunction, hlength, rfl, haccepts⟩

/-- A payload is encoded exactly when it fits, its frame is decoded to what was encoded, and no
two requests have the same frame. Conversely the bytes of a serial reply are decoded exactly when
they are a frame of the encoder, for the strict check, or differ from one in no more than one byte
of the check value, for the loose one; what follows them is not looked at. -/
theorem codecs_exact :
    (∀ protocol unit function payload,
      ((∃ frame, encode protocol unit function payload = .ok frame) ↔
        payload.length ≤ maxPayload protocol)) ∧
    (∀ protocol unit function payload frame check,
      encode protocol unit function payload = .ok frame → function < 0x80 →
      (protocol = .tcp → payload ≠ []) →
      decode protocol frame (payload.length + 1) check = .ok (function :: payload)) ∧
    (∀ protocol unit unit' function function' payload payload' frame,
      encode protocol unit function payload = .ok frame →
      encode protocol unit' function' payload' = .ok frame →
      unit = unit' ∧ function = function' ∧ payload = payload') ∧
    ∀ n raw, 1 ≤ n → raw.length = n + 3 →
      (∀ pdu, decode .rtu raw n .strict = .ok pdu ↔
        ∃ node function payload, raw.head? = some node ∧ function < 0x80 ∧
          pdu = function :: payload ∧ encode .rtu ⟨node⟩ function payload = .ok raw) ∧
      (∀ pdu, decode .rtu raw n .legacy = .ok pdu ↔
        ∃ node function payload frame, raw.head? = some node ∧ function < 0x80 ∧
          pdu = function :: payload ∧ encode .rtu ⟨node⟩ function payload = .ok frame ∧
          ButOneCheckByte raw frame) ∧
      ∀ extra check, decode .rtu (raw ++ extra) n check = decode .rtu raw n check := by
  refine ⟨?fits, ?back, ?unique, ?exact⟩
  case fits => exact fun protocol _ _ _ => exists_encode_iff protocol
  case back => exact fun _ _ _ _ _ _ hencode => decode_encode hencode
  case unique => exact fun _ _ _ _ _ _ _ _ hencode => encode_injective hencode
  case exact =>
    intro n raw hn hraw
    exact ⟨fun _ => decode_strict_iff hn hraw, fun _ => decode_legacy_iff hn hraw,
      fun _ _ => decode_rtu_append hn hraw⟩

/-- A read of three registers passes both checks, and with one byte of the check value altered
only the loose one. -/
theorem codecs_exact_read :
    encode .rtu ⟨0x11⟩ 3 [0, 0x6B, 0, 3] = .ok [0x11, 3, 0, 0x6B, 0, 3, 0x76, 0x87] ∧
    decode .rtu [0x11, 3, 0, 0x6B, 0, 3, 0x76, 0x87] 5 .strict = .ok [3, 0, 0x6B, 0, 3] ∧
    decode .rtu [0x11, 3, 0, 0x6B, 0, 3, 0x76, 0x88] 5 .legacy = .ok [3, 0, 0x6B, 0, 3] ∧
    ¬ decode .rtu [0x11, 3, 0, 0x6B, 0, 3, 0x76, 0x88] 5 .strict = .ok [3, 0, 0x6B, 0, 3] := by
  have hencode : encode .rtu ⟨0x11⟩ 3 [0, 0x6B, 0, 3] =
      .ok [0x11, 3, 0, 0x6B, 0, 3, 0x76, 0x87] := by decide +kernel
  obtain ⟨-, hback, -, hexact⟩ := codecs_exact
  obtain ⟨hstrict, hlegacy, -⟩ := hexact 5 [0x11, 3, 0, 0x6B, 0, 3, 0x76, 0x88] (by decide) rfl
  have hdecode : decode .rtu [0x11, 3, 0, 0x6B, 0, 3, 0x76, 0x87] 5 .strict =
      .ok [3, 0, 0x6B, 0, 3] :=
    hback .rtu ⟨0x11⟩ 3 [0, 0x6B, 0, 3] _ .strict hencode (by decide) nofun
  refine ⟨hencode, hdecode, ?_, ?_⟩
  · refine (hlegacy _).mpr ⟨_, _, _, _, rfl, by decide, rfl, hencode, rfl, 7, .inl rfl, ?_⟩
    intro j hj
    match j with
    | 0 | 1 | 2 | 3 | 4 | 5 | 6 => rfl
    | 7 => exact absurd rfl hj
    | j + 8 => rfl
  · intro h
    obtain ⟨node, function, payload, hnode, -, hpdu, hcode⟩ := (hstrict _).mp h
    cases hnode
    cases hpdu
    rw [hencode] at hcode
    exact absurd hcode (by decide)

end ModbusMaster.Frame
