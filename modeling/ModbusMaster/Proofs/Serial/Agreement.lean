import ModbusMaster.Proofs.Frame.RoundTrip
import ModbusMaster.Proofs.Serial.Port

/-!
Reading a reply in two parts comes to the same as decoding all that came in. The first two bytes
tell how many more there can be, and the decoder looks at no byte behind those.
-/

namespace ModbusMaster

/-- The decoder looks at no more bytes than a transport reads. -/
theorem Frame.decode_rtu_take {node echo : UInt8} {rest : Bytes} {length : Nat}
    {check : CrcCheck} :
    Rtu.decode (node :: echo :: rest.take (Serial.Transport.remaining echo length)) length check =
      Rtu.decode (node :: echo :: rest) length check := by
  unfold Serial.Transport.remaining
  cases hecho : refuses echo with
  | true =>
    -- of a refusal three bytes are decoded and five are read
    cases rest with
    | nil => rfl
    | cons code rest => exact (decode_refusal hecho).trans (decode_refusal hecho).symm
  | false =>
    rw [if_neg Bool.false_ne_true]
    by_cases hshort : rest.length ≤ length + 1
    · rw [List.take_of_length_le hshort]
    · -- the body and the two bytes of the check value are all there
      have hbody : (node :: echo :: rest.take (length + 1)).take (length + 1) =
          (node :: echo :: rest).take (length + 1) := by
        show ((node :: echo :: rest).take (length + 3)).take (length + 1) = _
        rw [List.take_take, Nat.min_eq_left (by omega)]
      have hcheck : (node :: echo :: rest.take (length + 1)).drop (length + 1) =
          ((node :: echo :: rest).drop (length + 1)).take 2 := by
        show ((node :: echo :: rest).take (length + 3)).drop (length + 1) = _
        rw [List.drop_take]
        congr 1
        omega
      have hlong : 2 ≤ ((node :: echo :: rest).drop (length + 1)).length := by
        simp only [List.length_drop, List.length_cons]
        omega
      unfold Rtu.decode
      simp only [hecho, Bool.false_eq_true, if_false, hbody, hcheck]
      match hdrop : (node :: echo :: rest).drop (length + 1), hlong with
      | low :: high :: extra, _ => rfl

namespace Serial.Port

variable {port : Port} {count : Nat} {frame bytes : Bytes}

theorem write_of_none (h : port.current.writeError = none) :
    port.write frame = (.ok (), port.sent frame) := by
  rw [write, h]

theorem read_of_nil (h : port.current.readErrors = []) :
    let ending := Reading.follow port.hangUp port.clock
      (.start port.clock port.timeout count) { waiting := port.waiting } port.arrivals
    port.read count = (.ok ending.bytes,
      { port with
        current := { port.current with readErrors := [] }
        clock := ending.finished
        waiting := ending.rest.waiting
        arrivals := ending.arrivals
        reads := port.reads ++ [(count, ending.bytes)] }) := by
  simp only [read, h, List.headD_nil, List.tail_nil]

/-- What a read took is no longer there. -/
theorem unread_read (h : port.current.readErrors = []) (hok : (port.read count).1 = .ok bytes) :
    bytes ++ (port.read count).2.unread = port.unread := by
  rw [read_of_nil h] at hok ⊢
  cases hok
  have hkept := Reading.follow_conserves port.hangUp port.clock
    (.start port.clock port.timeout count) { waiting := port.waiting } port.arrivals
  simpa [unread, Reading.start] using hkept

theorem reads_read (h : port.current.readErrors = []) (hok : (port.read count).1 = .ok bytes) :
    (port.read count).2.reads = port.reads ++ [(count, bytes)] := by
  rw [read_of_nil h] at hok ⊢
  cases hok
  rfl

theorem read_short (h : port.current.readErrors = []) (horder : InOrder port.clock port.arrivals)
    (hshort : port.early.length < 2) : (port.read 2).1 = .ok port.heard := by
  have hbytes : (Reading.follow port.hangUp port.clock (.start port.clock port.timeout 2)
      { waiting := port.waiting } port.arrivals).bytes = port.early :=
    Reading.follow_short port.hangUp horder hshort
  rw [read_of_nil h, hbytes, heard, if_pos hshort]

/-- Both reads when two bytes come in: the second one goes on where the first one stopped. -/
theorem read_twice (h : port.current.readErrors = []) (horder : InOrder port.clock port.arrivals)
    (henough : 2 ≤ port.early.length) :
    2 ≤ port.heard.length ∧ (port.read 2).1 = .ok (port.heard.take 2) ∧
      ∀ count, ((port.read 2).2.read count).1 = .ok ((port.heard.drop 2).take count) := by
  obtain ⟨passed, hfilled⟩ : ∃ passed, Reading.Filled (.start port.clock port.timeout 2)
      port.clock port.waiting port.arrivals passed _ :=
    Reading.follow_filled port.hangUp horder henough
  generalize hending : Reading.follow port.hangUp port.clock (.start port.clock port.timeout 2)
    { waiting := port.waiting } port.arrivals = ending at hfilled
  -- the second deadline is no earlier than the first one
  have hlater : port.clock + port.timeout ≤ ending.finished + port.timeout :=
    Nat.add_le_add_right hfilled.later _
  have hheard : port.heard = (port.waiting ++ passed.flatMap (·.2)) ++
      before (ending.finished + port.timeout) ending.arrivals := by
    rw [heard, if_neg (Nat.not_lt.mpr henough), List.append_assoc, ← hfilled.before_eq hlater,
      hfilled.finished]
    rfl
  have htwo : 2 ≤ (port.waiting ++ passed.flatMap (·.2)).length := hfilled.enough
  have hread : port.read 2 = (.ok ending.bytes,
      { port with
        current := { port.current with readErrors := [] }
        clock := ending.finished
        waiting := ending.rest.waiting
        arrivals := ending.arrivals
        reads := port.reads ++ [(2, ending.bytes)] }) := by
    rw [read_of_nil h, hending]
  rw [hread]
  refine ⟨?_, ?_, fun count => ?_⟩
  · rw [hheard, List.length_append]
    exact Nat.le_add_right_of_le htwo
  · rw [hfilled.bytes, hheard, List.take_append_of_le_length htwo]
    rfl
  · have hsecond : (Reading.follow port.hangUp ending.finished
        (.start ending.finished port.timeout count) { waiting := ending.rest.waiting }
        ending.arrivals).bytes =
        (ending.rest.waiting ++ before (ending.finished + port.timeout) ending.arrivals).take
          count :=
      Reading.follow_bytes port.hangUp hfilled.order
    rw [read_of_nil rfl, hheard, List.drop_append_of_le_length htwo]
    dsimp only
    rw [hsecond, hfilled.rest]
    rfl

end Serial.Port

namespace Serial.Transport

open Port

variable {transport : Transport} {port : Port} {frame head rest : Bytes} {node echo : UInt8}
  {length : Nat}

theorem run_writeFrame_port (hwrite : port.next.writeError = none) :
    (transport.writeFrame frame).run answer port = (.ok (), port.flush.sent frame) := by
  have hcurrent : port.flush.current.writeError = none := hwrite
  simp [writeFrame, write_of_none hcurrent]

theorem run_exchangeFrame_short (hwrite : port.next.writeError = none)
    (hfirst : ((port.flush.sent frame).read 2).1 = .ok head) (hshort : head.length < 2) :
    (transport.exchangeFrame frame length).run answer port =
      ((.error .responseTimeout, head), ((port.flush.sent frame).read 2).2) := by
  simp only [exchangeFrame, Action.run_bind, run_writeFrame_port hwrite, run_read, echoLength,
    hfirst]
  match head, hshort with
  | [], _ => simp
  | [_], _ => simp

theorem run_exchangeFrame_full (hwrite : port.next.writeError = none)
    (hfirst : ((port.flush.sent frame).read 2).1 = .ok [node, echo])
    (hsecond : (((port.flush.sent frame).read 2).2.read (remaining echo length)).1 = .ok rest) :
    (transport.exchangeFrame frame length).run answer port =
      ((Frame.Rtu.decode (node :: echo :: rest) length transport.options.crcCheck,
          node :: echo :: rest),
        (((port.flush.sent frame).read 2).2.read (remaining echo length)).2) := by
  simp only [exchangeFrame, Action.run_bind, run_writeFrame_port hwrite, run_read, echoLength,
    hfirst, hsecond]
  split <;> cases hdecode : Frame.Rtu.decode (node :: echo :: rest) length
    transport.options.crcCheck <;> simp [hdecode]

theorem run_logFailure_port {α : Type} (sent received : Bytes)
    (result : Except RequestError α) (port : Port) :
    ∃ log, (transport.logFailure sent received result).run answer port =
      ((), { port with log }) := by
  unfold logFailure
  cases result with
  | ok => exact ⟨port.log, rfl⟩
  | error error =>
    cases transport.options.logFile with
    | none => exact ⟨port.log, rfl⟩
    | some path => exact ⟨_, rfl⟩

/-- What an exchange reads of all that comes in: a prefix, in one or two reads, and no more than
the second byte announces. -/
def Consumed (heard : Bytes) (length : Nat) (reads : List (Nat × Bytes)) : Prop :=
  reads.length ≤ 2 ∧ reads.flatMap (·.2) <+: heard ∧
    (reads.flatMap (·.2)).length ≤ if refuses (heard.getD 1 0) then 5 else length + 3

theorem consumed_short {heard : Bytes} (h : heard.length < 2) :
    Consumed heard length [(2, heard)] := by
  have hlimit : 2 ≤ if refuses (heard.getD 1 0) then 5 else length + 3 := by split <;> omega
  refine ⟨Nat.le_succ 1, ?_, ?_⟩
  · simp only [List.flatMap_singleton, List.prefix_rfl]
  · rw [List.flatMap_singleton]
    exact Nat.le_trans (Nat.le_of_lt h) hlimit

theorem consumed_full (node echo : UInt8) (more : Bytes) (length : Nat) :
    Consumed (node :: echo :: more) length
      [(2, [node, echo]), (remaining echo length, more.take (remaining echo length))] := by
  have hall : [(2, [node, echo]),
      (remaining echo length, more.take (remaining echo length))].flatMap (·.2) =
        node :: echo :: more.take (remaining echo length) := by simp
  have htake : (more.take (remaining echo length)).length ≤ remaining echo length :=
    List.length_take_le _ _
  have hlimit : remaining echo length + 2 ≤ if refuses echo then 5 else length + 3 := by
    rw [remaining]
    split <;> omega
  refine ⟨Nat.le_refl 2, ?_, ?_⟩
  · rw [hall]
    exact List.prefix_append_right_inj [node, echo] |>.mpr (List.take_prefix _ _)
  · rw [hall, List.getD_cons_succ, List.getD_cons_zero, List.length_cons, List.length_cons]
    exact Nat.le_trans (Nat.add_le_add_right htake 2) hlimit

/-- A frame is written once, and the result is what the decoder makes of all that comes in. -/
theorem exchangeFrame_agrees (transport : Transport) (frame : Bytes) (length : Nat)
    (hwrite : port.next.writeError = none)
    (hread : port.next.readErrors = []) :
    let asked := port.flush.sent frame
    let outcome := (transport.exchangeFrame frame length).run answer port
    outcome.1.1 = (if asked.heard.length < 2 then .error .responseTimeout
        else Frame.Rtu.decode asked.heard length transport.options.crcCheck) ∧
      outcome.2.written = port.written ++ [frame] ∧
      ∃ reads, outcome.2.reads = port.reads ++ reads ∧ Consumed asked.heard length reads ∧
        reads.flatMap (·.2) ++ outcome.2.unread = asked.unread := by
  intro asked
  have hnone : asked.current.readErrors = [] := hread
  have horder : InOrder asked.clock asked.arrivals := inOrder_timed _ _
  -- the first read gives all that comes in before its deadline, or two bytes as soon as they are in
  by_cases hshort : asked.early.length < 2
  · have hfirst : (asked.read 2).1 = .ok asked.heard := read_short hnone horder hshort
    have hheard : asked.heard.length < 2 := by rwa [heard, if_pos hshort]
    rw [run_exchangeFrame_short hwrite hfirst hheard]
    refine ⟨(if_pos hheard).symm, ?_, [(2, asked.heard)], reads_read hnone hfirst,
      consumed_short hheard, ?_⟩
    · rw [read_of_nil hnone]
      rfl
    · rw [List.flatMap_singleton]
      exact unread_read hnone hfirst
  · obtain ⟨hheard, hfirst, hsecond⟩ := read_twice hnone horder (Nat.le_of_not_lt hshort)
    obtain ⟨node, echo, more, hmore⟩ : ∃ node echo more, asked.heard = node :: echo :: more := by
      match asked.heard, hheard with
      | node :: echo :: more, _ => exact ⟨node, echo, more, rfl⟩
    replace hsecond := hsecond (remaining echo length)
    rw [hmore] at hfirst hsecond hheard ⊢
    have hafter : (asked.read 2).2.current.readErrors = [] := by rw [read_of_nil hnone]
    rw [run_exchangeFrame_full hwrite hfirst hsecond]
    refine ⟨?_, ?_, _, ?_, consumed_full node echo more length, ?_⟩
    · rw [if_neg (Nat.not_lt.mpr hheard)]
      exact Frame.decode_rtu_take
    · rw [read_of_nil hafter, read_of_nil hnone]
      rfl
    · rw [reads_read hafter hsecond, reads_read hnone hfirst, List.append_assoc]
      rfl
    · -- what the first read left is what the second one starts from
      have hhead := unread_read hnone hfirst
      rw [← unread_read hafter hsecond] at hhead
      simpa using hhead

/-- Reading incrementally agrees with decoding at once. What was not read by then is still there,
and all of it came in after the flush. -/
theorem exchange_agrees (transport : Transport) (port : Port) {unit : UnitId} {function : UInt8}
    {payload : Bytes} (length : Nat)
    (hencode : Frame.Rtu.encode unit function payload = .ok frame)
    (hwrite : port.next.writeError = none) (hread : port.next.readErrors = []) :
    let asked := port.flush.sent frame
    let result := if asked.heard.length < 2 then .error .responseTimeout
      else Frame.Rtu.decode asked.heard length transport.options.crcCheck
    let outcome := (transport.exchange unit function payload length).run answer port
    outcome.1 = (result, transport.after result) ∧
      outcome.2.written = port.written ++ [frame] ∧
      ∃ reads, outcome.2.reads = port.reads ++ reads ∧ Consumed asked.heard length reads ∧
        reads.flatMap (·.2) ++ outcome.2.unread =
          port.next.prompt ++ port.next.parts.flatMap (·.2) := by
  intro asked result
  have h := exchangeFrame_agrees transport frame length hwrite hread
  generalize hrun : (transport.exchangeFrame frame length).run answer port = outcome at h
  obtain ⟨⟨read, received⟩, port'⟩ := outcome
  obtain ⟨rfl, hwritten, reads, hreads, hconsumed, hunread⟩ := h
  obtain ⟨log, hlog⟩ := run_logFailure_port frame received result port'
  simp only [exchange, hencode, Action.run_bind, run_acquireBus, run_releaseBus, hrun]
  rw [hlog]
  exact ⟨rfl, hwritten, reads, hreads, hconsumed, hunread.trans (unread_sent_flush frame)⟩

/-- A reply comes in three parts, behind noise that the flush drops and with a byte too many. The
last part comes at the second deadline, which is too late. -/
theorem exchange_agrees_in_parts :
    let transport : Transport := { line := 0, bus := 0, options := {} }
    let frame : Bytes := [0x2A, 3, 0, 4, 0, 1, 0xC3, 0xD0]
    let port : Port :=
      { timeout := 50
        waiting := [0xFF]
        script := [{ stale := [0xAA], prompt := [0x2A], parts :=
          [(40, [3, 2]), (45, [0]), (4, [7, 0xDD, 0x80, 0x55]), (1, [0x66])] }] }
    let outcome := (transport.exchange ⟨0x2A⟩ 3 [0, 4, 0, 1] 4).run answer port
    (port.flush.sent frame).heard = [0x2A, 3, 2, 0, 7, 0xDD, 0x80, 0x55] ∧
      outcome.1 = (.ok [3, 2, 0, 7], { transport with health := ⟨.on, none⟩ }) ∧
      outcome.2.written = [frame] ∧ outcome.2.reads.length ≤ 2 := by
  intro transport frame port outcome
  have hencode : Frame.Rtu.encode ⟨0x2A⟩ 3 [0, 4, 0, 1] = .ok frame := by decide +kernel
  have hheard : (port.flush.sent frame).heard = [0x2A, 3, 2, 0, 7, 0xDD, 0x80, 0x55] := by
    decide +kernel
  have hdecode : Frame.Rtu.decode [0x2A, 3, 2, 0, 7, 0xDD, 0x80, 0x55] 4 .strict =
      .ok [3, 2, 0, 7] := by decide +kernel
  obtain ⟨hresult, hwritten, reads, hreads, hconsumed, -⟩ :=
    exchange_agrees transport port 4 hencode rfl rfl
  refine ⟨hheard, ?_, hwritten, ?_⟩
  · rw [hresult, hheard]
    show ((_ : Except RequestError Bytes), transport.after _) = _
    rw [if_neg (by decide), hdecode]
    rfl
  · rw [hreads]
    exact hconsumed.1

end Serial.Transport

end ModbusMaster
