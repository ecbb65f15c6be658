import ModbusMaster.Engine
import ModbusMaster.Proofs.Action.Environment
import ModbusMaster.Proofs.Equipment.Delivery
import ModbusMaster.Proofs.Tcp.Session

/-!
A master and its equipment together. On a `Site` every call of the master is answered at once: what
it writes reaches the equipment, and what the equipment replies waits for the next read. Performing
operations there gives the results, and leaves the memory, that `Image.performAll` says
(`Engine.run_mapM_perform`), and the master does not panic.
-/

namespace ModbusMaster

/-- One master with one piece of equipment. -/
structure Site where
  equipment : Equipment
  /-- The transport while nobody uses it. -/
  transport : Transport
  /-- What has arrived for the master and was not read. -/
  waiting : Bytes
  /-- What the clock shows, one look after the other. -/
  clock : Nat → Instant
  /-- The stream that a connection gets. -/
  stream : Handle
  /-- Whether the master has panicked. It goes on all the same. -/
  panicked : Bool := false

namespace Site

/-- The site when a frame has reached the equipment, which replies in time. -/
def receive (site : Site) (protocol : Protocol) (frame : Bytes) : Site :=
  { site with
    equipment := (site.equipment.receive protocol frame).2
    waiting := site.waiting ++ (site.equipment.receive protocol frame).1 }

/-- The answer to a call, and the site afterwards. -/
def answer : (call : Call) → Site → call.Answer × Site
  | .flush _, site => (.ok (), { site with waiting := [] })
  | .write _ bytes, site => (.ok (), site.receive .rtu bytes)
  | .read _ count, site =>
      (.ok (site.waiting.take count), { site with waiting := site.waiting.drop count })
  | .connect _ _, site => (.ok site.stream, { site with waiting := [] })
  | .transmit _ bytes _, site => (.ok (), site.receive .tcp bytes)
  | .receive _ count _, site =>
      (.ok (site.waiting.take count), { site with waiting := site.waiting.drop count })
  | .acquireTransport _, site => (site.transport, site)
  | .releaseTransport _ transport, site => ((), { site with transport })
  | .now, site => (site.clock 0, { site with clock := fun look => site.clock (look + 1) })
  | .acquireBus _, site | .releaseBus _, site | .close _, site | .sleep _, site
  | .sleepUntil _, site | .publish _ _ _, site | .startPolling _, site | .report _, site
  | .print _, site => ((), site)
  | .entries _, site => ([], site)
  | .command _ _, site => (false, site)
  | .await _ _, site => (.closed, site)
  | .openPort _ _, site => (.ok 0, site)
  | .newEngine _, site | .newCache _, site => ((0 : Nat), site)
  | .appendLog _ _, site => (none, site)
  | .panic _, site => ((), { site with panicked := true })

/-! ### The calls of an exchange -/

variable {site : Site}

@[simp] theorem run_acquireBus (bus : Handle) :
    (Action.acquireBus bus).run answer site = ((), site) := rfl

@[simp] theorem run_releaseBus (bus : Handle) :
    (Action.releaseBus bus).run answer site = ((), site) := rfl

@[simp] theorem run_flush (line : Handle) :
    (Action.flush line).run answer site = (.ok (), { site with waiting := [] }) := rfl

@[simp] theorem run_write (line : Handle) (bytes : Bytes) :
    (Action.write line bytes).run answer site = (.ok (), site.receive .rtu bytes) := rfl

@[simp] theorem run_read (line : Handle) (count : Nat) :
    (Action.read line count).run answer site =
      (.ok (site.waiting.take count), { site with waiting := site.waiting.drop count }) := rfl

@[simp] theorem run_connect (settings : Tcp.Settings) (host : Host) :
    (Action.connect settings host).run answer site =
      (.ok site.stream, { site with waiting := [] }) := rfl

@[simp] theorem run_transmit (stream : Handle) (bytes : Bytes) (limit : Duration) :
    (Action.transmit stream bytes limit).run answer site =
      (.ok (), site.receive .tcp bytes) := rfl

@[simp] theorem run_receive (stream : Handle) (count : Nat) (limit : Duration) :
    (Action.receive stream count limit).run answer site =
      (.ok (site.waiting.take count), { site with waiting := site.waiting.drop count }) := rfl

@[simp] theorem run_now :
    Action.now.run answer site =
      (site.clock 0, { site with clock := fun look => site.clock (look + 1) }) := rfl

@[simp] theorem run_report (event : Event) :
    (Action.report event).run answer site = ((), site) := rfl

@[simp] theorem run_print (line : String) : (Action.print line).run answer site = ((), site) := rfl

theorem run_require {condition : Prop} [Decidable condition] (cause : Panic) :
    (Action.require condition cause).run answer site =
      ((), { site with panicked := site.panicked || !decide condition }) := by
  by_cases hcondition : condition
  · rw [Action.require, if_pos hcondition, decide_eq_true hcondition, Bool.not_true, Bool.or_false]
    rfl
  · rw [Action.require, if_neg hcondition, decide_eq_false hcondition, Bool.not_false, Bool.or_true]
    rfl

@[simp] theorem run_acquireTransport (engine : Handle) :
    (Action.acquireTransport engine).run answer site = (site.transport, site) := rfl

@[simp] theorem run_releaseTransport (engine : Handle) (transport : Transport) :
    (Action.releaseTransport engine transport).run answer site =
      ((), { site with transport }) := rfl

end Site

variable {site : Site}

namespace Serial.Transport

variable {transport : Transport} {frame : Bytes} {direction : Direction}

@[simp] theorem run_reportFrame :
    (transport.reportFrame direction frame).run Site.answer site = ((), site) := by
  unfold reportFrame
  dsimp only
  split <;> rfl

@[simp] theorem run_reportBytes :
    (transport.reportBytes direction frame).run Site.answer site = ((), site) := by
  unfold reportBytes
  dsimp only
  split <;> rfl

@[simp] theorem run_writeFrame :
    (transport.writeFrame frame).run Site.answer site =
      (.ok (), Site.receive { site with waiting := [] } .rtu frame) := by
  simp [writeFrame]

/-- A reply that has arrived is read in two parts and accepted. -/
theorem run_exchangeFrame {site' : Site} {node echo : UInt8} {rest reply : Bytes} {length : Nat}
    (hreceive : ({ site with waiting := [] } : Site).receive .rtu frame = site')
    (hwaiting : site'.waiting = node :: echo :: rest)
    (hecho : refuses echo = false) (hrest : rest.length = length + 1)
    (hdecode : Frame.Rtu.decode (node :: echo :: rest) length transport.options.crcCheck =
      .ok reply) :
    (transport.exchangeFrame frame length).run Site.answer site =
      ((.ok reply, node :: echo :: rest), { site' with waiting := [] }) := by
  have hcount : remaining echo length = length + 1 := by rw [remaining, hecho]; rfl
  have htake : rest.take (length + 1) = rest := List.take_of_length_le (Nat.le_of_eq hrest)
  have hdrop : rest.drop (length + 1) = [] := List.drop_eq_nil_of_le (Nat.le_of_eq hrest)
  simp [exchangeFrame, hreceive, hwaiting, echoLength, hcount, htake, hdrop, hrest, hdecode]

theorem run_logFailure {α : Type} {sent received : Bytes} {reply : α} :
    (transport.logFailure sent received (.ok reply : Except RequestError α)).run Site.answer
      site = ((), site) := rfl

/-- A request that the equipment serves is answered over a serial line. -/
theorem run_exchange {α : Type} {request : Request α} {unit : UnitId} {value : α} {after : Image}
    (h : request.Served site.equipment.image value after)
    (hnode : unit.value = site.equipment.node) (hunit : unit.value ≠ 0) :
    ∃ reply transport', (transport.exchange unit request.function.code request.payload
        request.replyLength).run Site.answer site =
      ((.ok reply, transport'),
        { site with equipment := ⟨unit.value, after⟩, waiting := [] }) ∧
      request.answerOf reply = .ok value := by
  obtain ⟨data, hreceive, hlength, hdecode, hanswer⟩ :=
    h.delivered .rtu transport.options.crcCheck hunit
  have hencode : Frame.Rtu.encode unit request.function.code request.payload = .ok _ :=
    Frame.encode_eq_ok .rtu h.payload_le
  have hequipment : site.equipment = ⟨unit.value, site.equipment.image⟩ := by rw [hnode]
  have hsite : ({ site with waiting := [] } : Site).receive .rtu
      (Frame.requestFrame .rtu unit request.function.code request.payload) =
      { site with
        equipment := ⟨unit.value, after⟩
        waiting := Server.replyFrame .rtu unit.value (request.function.code :: data) } := by
    simp only [Site.receive, List.nil_append]
    rw [hequipment, hreceive]
  have hexchange := run_exchangeFrame hsite rfl (refuses_code _) (by simp [hlength]) hdecode
  refine ⟨_, transport.after (.ok (request.function.code :: data)), ?_, hanswer⟩
  simp [exchange, hencode, hexchange, run_logFailure]

/-- A frame to every node is written and not answered. -/
theorem run_send {request : Request Unit} {after : Image}
    (h : request.Served site.equipment.image () after) :
    ∃ transport', (transport.send UnitId.broadcast request.function.code request.payload).run
        Site.answer site =
      ((.ok (), transport'),
        { site with equipment := ⟨site.equipment.node, after⟩, waiting := [] }) := by
  have hencode : Frame.Rtu.encode UnitId.broadcast request.function.code request.payload =
      .ok _ := Frame.encode_eq_ok .rtu h.payload_le
  have hsite : ({ site with waiting := [] } : Site).receive .rtu
      (Frame.requestFrame .rtu UnitId.broadcast request.function.code request.payload) =
      { site with equipment := ⟨site.equipment.node, after⟩, waiting := [] } := by
    simp only [Site.receive, h.broadcasted .rtu site.equipment.node]
    rfl
  refine ⟨transport.after (.ok () : Except RequestError Unit), ?_⟩
  simp [send, hencode, hsite, run_logFailure]

end Serial.Transport

namespace Tcp.Transport

variable {transport : Transport} {frame : Bytes} {direction : Direction} {stream : Handle}

@[simp] theorem run_reportFrame :
    (transport.reportFrame direction frame).run Site.answer site = ((), site) := by
  unfold reportFrame
  dsimp only
  split <;> rfl

@[simp] theorem run_reportBytes :
    (transport.reportBytes direction frame).run Site.answer site = ((), site) := by
  unfold reportBytes
  dsimp only
  split <;> rfl

/-- Whether a connection is open, or another attempt to open one is allowed at an instant. -/
def Ready (transport : Transport) (now : Instant) : Prop :=
  transport.stream = none → transport.tooEarly now = false

/-- A transport that was just built may connect whatever the time is. -/
theorem ready_of {resolve : String → Option Host} {settings : Settings}
    (hof : Transport.of resolve settings = .ok transport) (now : Instant) :
    transport.Ready now := by
  obtain ⟨host, rfl⟩ := of_eq_ok hof
  intro _
  rfl

/-- A connection is opened when there is none. -/
theorem run_connect (hready : transport.Ready (site.clock 0)) (hwaiting : site.waiting = []) :
    ∃ transport' stream clock, transport.connect.run Site.answer site =
        ((.ok (), transport'), { site with clock }) ∧ transport'.stream = some stream := by
  cases hstream : transport.stream with
  | some stream =>
    refine ⟨transport, stream, site.clock, ?_, hstream⟩
    simp [connect, hstream]
  | none =>
    have hdue := hready hstream
    -- the clock is read to see whether it is too early, and again when the attempt starts
    let opened : Transport := { transport with
      stream := some site.stream
      connection := .connected
      lastAttempt := some (site.clock 1)
      attempts := transport.attempts + 1 }
    refine ⟨opened, site.stream, fun look => site.clock (look + 2), ?_, rfl⟩
    simp [connect, hstream, hdue, hwaiting, opened]

theorem run_writeFrame (hstream : transport.stream = some stream) :
    (transport.writeFrame frame).run Site.answer site =
      ((.ok (), transport), site.receive .tcp frame) := by
  simp [writeFrame, hstream]

theorem run_readOnce (hstream : transport.stream = some stream)
    (hwaiting : site.waiting.length ≤ Frame.maxLength) :
    transport.readOnce.run Site.answer site =
      ((.ok site.waiting, transport), { site with waiting := [] }) := by
  simp [readOnce, hstream, List.take_of_length_le hwaiting, List.drop_eq_nil_of_le hwaiting]

/-- A reply that arrives in one piece is read whole. -/
theorem run_attempt {site' : Site} (hready : transport.Ready (site.clock 0))
    (hwaiting : site.waiting = []) (hreceive : ∀ clock,
      ({ site with clock } : Site).receive .tcp frame = { site' with clock })
    (hlength : site'.waiting.length ≤ Frame.maxLength) :
    ∃ transport' stream clock, (transport.attempt frame).run Site.answer site =
        ((.ok site'.waiting, transport'), { site' with waiting := [], clock }) ∧
      transport'.stream = some stream := by
  -- connecting may look at the clock, so the frame arrives at a site with any clock
  obtain ⟨opened, stream, clock, hconnect, hstream⟩ := run_connect hready hwaiting
  refine ⟨opened, stream, clock, ?_, hstream⟩
  simp [attempt, hconnect, run_writeFrame hstream, hreceive clock, run_readOnce hstream, hlength]

theorem run_acceptReply {raw reply : Bytes} {length : Nat}
    (hlength : Frame.Tcp.headerLength + length < indexLimit)
    (hdecode : Frame.Tcp.decode raw length = .ok reply) :
    (transport.acceptReply raw length).run Site.answer site = ((.ok reply, transport), site) := by
  have hindexed : Frame.Tcp.Indexed raw length := fun _ _ => hlength
  simp [acceptReply, Action.require, hindexed, hdecode]

/-- A request that the equipment serves is answered over TCP. -/
theorem run_exchange {α : Type} {request : Request α} {unit : UnitId} {value : α} {after : Image}
    (h : request.Served site.equipment.image value after)
    (hnode : unit.value = site.equipment.node) (hunit : unit.value ≠ 0)
    (hready : transport.Ready (site.clock 0)) (hwaiting : site.waiting = []) :
    ∃ reply transport' stream clock, (transport.exchange unit request.function.code
        request.payload request.replyLength).run Site.answer site =
      ((.ok reply, transport'),
        { site with equipment := ⟨unit.value, after⟩, waiting := [], clock }) ∧
      transport'.stream = some stream ∧ request.answerOf reply = .ok value := by
  obtain ⟨data, hreceive, hlength, hdecode, hanswer⟩ := h.delivered .tcp .strict hunit
  have hencode : Frame.Tcp.encode unit request.function.code request.payload = .ok _ :=
    Frame.encode_eq_ok .tcp h.payload_le
  have hequipment : site.equipment = ⟨unit.value, site.equipment.image⟩ := by rw [hnode]
  let site' : Site := { site with
    equipment := ⟨unit.value, after⟩
    waiting := Server.replyFrame .tcp unit.value (request.function.code :: data) }
  have hsite : ∀ clock, ({ site with clock } : Site).receive .tcp
      (Frame.requestFrame .tcp unit request.function.code request.payload) =
      { site' with clock } := by
    intro clock
    simp only [Site.receive, hwaiting, List.nil_append]
    rw [hequipment, hreceive]
  -- the stream is read once, so the whole reply has to fit into one read
  have hshort : site'.waiting.length ≤ Frame.maxLength := by
    have hmost := h.reply_le
    show data.length + 8 ≤ 512
    omega
  obtain ⟨opened, stream, clock, hattempt, hstream⟩ := run_attempt hready hwaiting hsite hshort
  have hframe : ∃ first rest, site'.waiting = first :: rest := ⟨_, _, rfl⟩
  obtain ⟨first, rest, hframe⟩ := hframe
  -- reading nothing would mean that the peer has closed the stream
  have hdecode' : Frame.Tcp.decode (first :: rest) request.replyLength =
      .ok (request.function.code :: data) := hframe ▸ hdecode
  rw [hframe] at hattempt
  have hindex : Frame.Tcp.headerLength + request.replyLength < indexLimit :=
    Nat.lt_of_le_of_lt (Nat.add_le_add_left h.reply_le _) (by decide)
  refine ⟨_, opened.after (.ok (request.function.code :: data)), stream, clock, ?_, hstream,
    hanswer⟩
  simp [exchange, exchangeFrame, hencode, hattempt, run_acceptReply hindex hdecode', site']

/-- A frame to every node is written and not answered. -/
theorem run_send {request : Request Unit} {after : Image}
    (h : request.Served site.equipment.image () after)
    (hready : transport.Ready (site.clock 0)) (hwaiting : site.waiting = []) :
    ∃ transport' stream clock, (transport.send UnitId.broadcast request.function.code
        request.payload).run Site.answer site =
      ((.ok (), transport'),
        { site with equipment := ⟨site.equipment.node, after⟩, waiting := [], clock }) ∧
      transport'.stream = some stream := by
  have hencode : Frame.Tcp.encode UnitId.broadcast request.function.code request.payload =
      .ok _ := Frame.encode_eq_ok .tcp h.payload_le
  have hsite : ∀ clock, ({ site with clock } : Site).receive .tcp
      (Frame.requestFrame .tcp UnitId.broadcast request.function.code request.payload) =
      { site with equipment := ⟨site.equipment.node, after⟩, waiting := [], clock } := by
    intro clock
    simp only [Site.receive, h.broadcasted .tcp site.equipment.node, hwaiting]
    rfl
  obtain ⟨opened, stream, clock, hconnect, hstream⟩ := run_connect hready hwaiting
  refine ⟨opened.after (.ok () : Except RequestError Unit), stream, clock, ?_, hstream⟩
  simp [send, hencode, hconnect, run_writeFrame hstream, hsite clock]

end Tcp.Transport

/-- The master has not panicked, and its transport can be used: nothing old waits to be read from a
connection, and a connection that is needed may be opened. A serial line can always be used. -/
def Site.Ready (site : Site) : Prop :=
  site.panicked = false ∧
    match site.transport with
    | .rtu _ => True
    | .tcp net => net.Ready (site.clock 0) ∧ site.waiting = []

namespace Transport

/-- A request that the equipment serves is answered, and the transport stays ready. -/
theorem run_exchange {α : Type} {request : Request α} {unit : UnitId} {value : α} {after : Image}
    (h : request.Served site.equipment.image value after)
    (hnode : unit.value = site.equipment.node) (hunit : unit.value ≠ 0) (hready : site.Ready) :
    ∃ reply transport' site', (site.transport.exchange unit request.function.code
        request.payload request.replyLength).run Site.answer site =
      ((.ok reply, transport'), site') ∧ request.answerOf reply = .ok value ∧
      site'.equipment = ⟨unit.value, after⟩ ∧
      Site.Ready { site' with transport := transport' } := by
  obtain ⟨hcalm, hready⟩ := hready
  cases htransport : site.transport with
  | rtu serial =>
    obtain ⟨reply, serial', hrun, hanswer⟩ := serial.run_exchange h hnode hunit
    refine ⟨reply, .rtu serial', { site with equipment := ⟨unit.value, after⟩, waiting := [] },
      ?_, hanswer, rfl, hcalm, trivial⟩
    simp [exchange, hrun]
  | tcp net =>
    rw [htransport] at hready
    obtain ⟨reply, net', stream, clock, hrun, hstream, hanswer⟩ :=
      net.run_exchange h hnode hunit hready.1 hready.2
    refine ⟨reply, .tcp net',
      { site with equipment := ⟨unit.value, after⟩, waiting := [], clock }, ?_, hanswer, rfl,
      hcalm, ?_, rfl⟩
    · simp [exchange, hrun]
    · intro hnone
      rw [hstream] at hnone
      cases hnone

/-- A frame to every node is written, and the transport stays ready. -/
theorem run_send {request : Request Unit} {after : Image}
    (h : request.Served site.equipment.image () after) (hready : site.Ready) :
    ∃ transport' site', (site.transport.send UnitId.broadcast request.function.code
        request.payload).run Site.answer site = ((.ok (), transport'), site') ∧
      site'.equipment = ⟨site.equipment.node, after⟩ ∧
      Site.Ready { site' with transport := transport' } := by
  obtain ⟨hcalm, hready⟩ := hready
  cases htransport : site.transport with
  | rtu serial =>
    obtain ⟨serial', hrun⟩ := serial.run_send h
    refine ⟨.rtu serial',
      { site with equipment := ⟨site.equipment.node, after⟩, waiting := [] }, ?_, rfl, hcalm,
      trivial⟩
    simp [send, hrun]
  | tcp net =>
    rw [htransport] at hready
    obtain ⟨net', stream, clock, hrun, hstream⟩ := net.run_send h hready.1 hready.2
    refine ⟨.tcp net',
      { site with equipment := ⟨site.equipment.node, after⟩, waiting := [], clock }, ?_, rfl,
      hcalm, ?_, rfl⟩
    · simp [send, hrun]
    · intro hnone
      rw [hstream] at hnone
      cases hnone

end Transport

namespace Engine

variable {engine : Engine}

/-- One operation does what it does to the memory. -/
theorem run_perform (operation : Operation) (hready : site.Ready)
    (hnode : engine.unit.value = site.equipment.node) (hunit : site.equipment.node ≠ 0) :
    ∃ site', (engine.perform operation).run Site.answer site =
        ((site.equipment.image.perform operation).1, site') ∧
      site'.equipment = ⟨site.equipment.node, (site.equipment.image.perform operation).2⟩ ∧
      site'.Ready := by
  cases operation.demanded site.equipment.image with
  | refused refusal demand =>
    refine ⟨site, ?_, ?_, hready⟩
    · simp [perform, demand, Image.perform, refusal]
    · simp [Image.perform, refusal]
  | exchange refusal demand served =>
    obtain ⟨reply, transport', site', hrun, hanswer, hequipment, hafter⟩ :=
      Transport.run_exchange served hnode (hnode ▸ hunit) hready
    refine ⟨{ site' with transport := transport' }, ?_, ?_, hafter⟩
    · simp [perform, demand, execute, Engine.exchange, use, hrun, hanswer, Image.perform, refusal,
        Except.mapError]
    · simp [Image.perform, refusal, hequipment, hnode]
  | broadcast refusal demand answer served =>
    obtain ⟨transport', site', hrun, hequipment, hafter⟩ := Transport.run_send served hready
    refine ⟨{ site' with transport := transport' }, ?_, ?_, hafter⟩
    · simp [perform, demand, sendTo, use, hrun, Image.perform, refusal, answer, Except.map]
    · simp [Image.perform, refusal, hequipment]

/-- Operations on a node, one after the other, give the results and leave the memory that they do
when they are performed on the memory itself. -/
theorem run_mapM_perform (operations : List Operation) (hready : site.Ready)
    (hnode : engine.unit.value = site.equipment.node) (hunit : site.equipment.node ≠ 0) :
    ∃ site', (operations.mapM engine.perform).run Site.answer site =
        ((site.equipment.image.performAll operations).1, site') ∧
      site'.equipment =
        ⟨site.equipment.node, (site.equipment.image.performAll operations).2⟩ ∧
      site'.Ready := by
  -- the induction is on the operations; each leaves the site ready for the next, with its node
  induction operations generalizing site with
  | nil => exact ⟨site, rfl, rfl, hready⟩
  | cons operation rest ih =>
    obtain ⟨first, hfirst, hequipment, hready'⟩ := run_perform operation hready hnode hunit
    have hnode' : engine.unit.value = first.equipment.node := by rw [hequipment, hnode]
    have hunit' : first.equipment.node ≠ 0 := by rw [hequipment]; exact hunit
    obtain ⟨last, hlast, hequipment', hready''⟩ := ih hready' hnode' hunit'
    rw [hequipment] at hlast hequipment'
    refine ⟨last, ?_, hequipment', hready''⟩
    rw [List.mapM_cons, Action.run_bind, hfirst, Action.run_bind, hlast]
    rfl

/-- A register of node 5 is written, masked and read over TCP. -/
theorem run_mapM_perform_register :
    let net : Tcp.Transport :=
      { settings := { host := "plc", port := 502 }, host := .v4 [10, 0, 0, 7] }
    let site : Site := ⟨⟨5, Image.blank⟩, .tcp net, [], fun _ => 0, 1, false⟩
    let engine : Engine := ⟨⟨5⟩, .tcp, 0⟩
    let operations : List Operation :=
      [.writeRegister 2 1005, .maskWriteRegister 2 0x00F2 0x0025, .readHoldingRegisters 1 2]
    ∃ site', (operations.mapM engine.perform).run Site.answer site =
        ([.ok .nothing, .ok .nothing, .ok (.registers [0, 0x00E5])], site') ∧
      site'.equipment.image.holding 2 = 0x00E5 := by
  have hresults : (Image.blank.performAll
      [.writeRegister 2 1005, .maskWriteRegister 2 0x00F2 0x0025, .readHoldingRegisters 1 2]).1 =
      [.ok .nothing, .ok .nothing, .ok (.registers [0, 0x00E5])] := rfl
  have hcontent : (Image.blank.performAll
      [.writeRegister 2 1005, .maskWriteRegister 2 0x00F2 0x0025,
        .readHoldingRegisters 1 2]).2.holding 2 = 0x00E5 := rfl
  intro net site engine operations
  have hof : Tcp.Transport.of (fun _ => some (.v4 [10, 0, 0, 7]))
      { host := "plc", port := 502 } = .ok net := rfl
  have hready : site.Ready := ⟨rfl, Tcp.Transport.ready_of hof _, rfl⟩
  have hnode : engine.unit.value = site.equipment.node := rfl
  obtain ⟨site', hrun, hequipment, -⟩ := run_mapM_perform operations hready hnode (by decide)
  refine ⟨site', hrun.trans (congrArg (·, site') hresults), ?_⟩
  rw [hequipment]
  exact hcontent

end Engine

end ModbusMaster
