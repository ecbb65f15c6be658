import ModbusMaster.Proofs.Serial.Port

/-!
What came in before a flush makes no difference. Every use of a transport that touches the line
flushes it first, and after a flush nothing tells ports apart that were sent the same since then.
-/

namespace ModbusMaster.Serial

/-- What a caller does with a transport. -/
inductive Use where
  | send (unit : UnitId) (function : UInt8) (payload : Bytes)
  | exchange (unit : UnitId) (function : UInt8) (payload : Bytes) (length : Nat)
  deriving DecidableEq

namespace Use

/-- Makes use of a transport. Where nothing is read, success is answered by no bytes. -/
def on (use : Use) (transport : Transport) : Action (Except RequestError Bytes × Transport) :=
  match use with
  | send unit function payload => do
      let (result, transport) ← transport.send unit function payload
      return (result.map fun _ => [], transport)
  | exchange unit function payload length => transport.exchange unit function payload length

/-- Makes use of a transport again and again; each result, with the transport after it. -/
def onAll (transport : Transport) :
    List Use → Action (List (Except RequestError Bytes × Transport))
  | [] => return []
  | use :: later => do
      let (result, transport) ← use.on transport
      let outcomes ← onAll transport later
      return (result, transport) :: outcomes

end Use

namespace Port

/-- The port without what is to come in before later flushes. -/
def unspoiled (port : Port) : Port :=
  { port with script := port.script.map fun episode => { episode with stale := [] } }

/-- The port without what is there to be flushed, now or later. -/
def fresh (port : Port) : Port :=
  { port.unspoiled with waiting := [], arrivals := [] }

/-- Two ports that differ in nothing but the bytes that are there before the flushes. -/
def Alike (port port' : Port) : Prop :=
  port.fresh = port'.fresh

variable {port port' : Port}

theorem Alike.record (h : port.Alike port') :
    port.written = port'.written ∧ port.reads = port'.reads ∧ port.log = port'.log := by
  have hfields : port.fresh.written = port'.fresh.written ∧ port.fresh.reads = port'.fresh.reads ∧
      port.fresh.log = port'.fresh.log := by
    rw [h]
    exact ⟨rfl, rfl, rfl⟩
  exact hfields

theorem next_unspoiled : port.unspoiled.next = { port.next with stale := [] } := by
  unfold next unspoiled
  cases port.script with
  | nil => rfl
  | cons => rfl

theorem fresh_unspoiled : port.unspoiled.fresh = port.fresh := by
  simp only [fresh, unspoiled, List.map_map]
  rfl

theorem flush_fresh : port.fresh.flush = port.flush.unspoiled := by
  have hnext : port.fresh.next = { port.next with stale := [] } := next_unspoiled
  simp only [flush, unspoiled, Incoming.flush_eq, hnext]
  simp only [fresh, unspoiled, List.map_tail]

theorem write_unspoiled (frame : Bytes) :
    port.unspoiled.write frame = ((port.write frame).1, (port.write frame).2.unspoiled) := by
  have hcurrent : port.unspoiled.current = port.current := rfl
  simp only [write, hcurrent]
  cases port.current.writeError <;> rfl

theorem read_unspoiled (count : Nat) :
    port.unspoiled.read count = ((port.read count).1, (port.read count).2.unspoiled) := by
  have hcurrent : port.unspoiled.current = port.current := rfl
  simp only [read, hcurrent]
  cases port.current.readErrors.headD none <;> rfl

theorem answer_unspoiled (call : Call) (port : Port) :
    answer call port.unspoiled = ((answer call port).1, (answer call port).2.unspoiled) := by
  cases call with
  | flush line =>
    have hflush : port.unspoiled.flush = port.flush.unspoiled := by
      simp only [flush, Incoming.flush_eq, next_unspoiled]
      simp only [unspoiled, List.map_tail]
    exact congrArg _ hflush
  | write line frame => exact write_unspoiled frame
  | read line count => exact read_unspoiled count
  | _ => rfl

end Port

/-- An action that makes no call at all, or takes the bus and flushes the line before anything
else. -/
inductive FlushesFirst {α : Type} : Action α → Prop where
  | done (result : α) : FlushesFirst (pure result)
  | flush (bus line : Handle) (next : Except IoError Unit → Action α) :
      FlushesFirst (Action.acquireBus bus >>= fun _ => Action.flush line >>= next)

section FlushesFirst

variable {α β : Type} {action : Action α}

theorem FlushesFirst.bind {next : α → Action β} (h : FlushesFirst action)
    (hnext : ∀ result, FlushesFirst (next result)) : FlushesFirst (action >>= next) := by
  cases h with
  | done result =>
    rw [pure_bind]
    exact hnext result
  | flush bus line rest =>
    simp only [bind_assoc]
    exact .flush bus line _

theorem Transport.send_flushesFirst (transport : Transport) (unit : UnitId) (function : UInt8)
    (payload : Bytes) : FlushesFirst (transport.send unit function payload) := by
  unfold send
  cases Frame.Rtu.encode unit function payload with
  | error cause => exact .done _
  | ok frame =>
    simp only [writeFrame, bind_assoc]
    exact .flush transport.bus transport.line _

theorem Transport.exchange_flushesFirst (transport : Transport) (unit : UnitId) (function : UInt8)
    (payload : Bytes) (length : Nat) :
    FlushesFirst (transport.exchange unit function payload length) := by
  unfold exchange
  cases Frame.Rtu.encode unit function payload with
  | error cause => exact .done _
  | ok frame =>
    simp only [exchangeFrame, writeFrame, bind_assoc]
    exact .flush transport.bus transport.line _

theorem Use.on_flushesFirst (use : Use) (transport : Transport) :
    FlushesFirst (use.on transport) := by
  cases use with
  | send unit function payload =>
    exact (transport.send_flushesFirst unit function payload).bind fun _ => .done _
  | exchange unit function payload length =>
    exact transport.exchange_flushesFirst unit function payload length

theorem Use.onAll_flushesFirst (uses : List Use) (transport : Transport) :
    FlushesFirst (onAll transport uses) := by
  induction uses generalizing transport with
  | nil => exact .done _
  | cons use later ih =>
    exact (use.on_flushesFirst transport).bind fun outcome =>
      (ih outcome.2).bind fun _ => .done _

/-- An action that flushes first cannot tell a port from a fresh one. -/
theorem FlushesFirst.run_fresh (h : FlushesFirst action) (port : Port) :
    (action.run Port.answer port.fresh).1 = (action.run Port.answer port).1 ∧
      (action.run Port.answer port.fresh).2.fresh = (action.run Port.answer port).2.fresh := by
  cases h with
  | done result =>
    have hfresh : port.fresh.fresh = port.fresh := port.fresh_unspoiled
    exact ⟨rfl, hfresh⟩
  | flush bus line next =>
    -- from the flush on, the ports differ in what is to come in before later flushes alone
    simp only [Action.run_bind, Port.run_acquireBus, Port.run_flush, Port.flush_fresh]
    rw [Action.run_view Port.answer_unspoiled]
    exact ⟨rfl, Port.fresh_unspoiled⟩

end FlushesFirst

/-- Whatever is there before the flushes, every use has the same result, leaves the transport in
the same state, writes and reads the same bytes and logs the same. -/
theorem onAll_alike {port port' : Port} (h : port.Alike port') (uses : List Use)
    (transport : Transport) :
    let outcome := (Use.onAll transport uses).run Port.answer port
    let outcome' := (Use.onAll transport uses).run Port.answer port'
    outcome.1 = outcome'.1 ∧ outcome.2.written = outcome'.2.written ∧
      outcome.2.reads = outcome'.2.reads ∧ outcome.2.log = outcome'.2.log ∧
      outcome.2.Alike outcome'.2 := by
  intro outcome outcome'
  have hflushes := Use.onAll_flushesFirst uses transport
  obtain ⟨hresult, hport⟩ := hflushes.run_fresh port
  obtain ⟨hresult', hport'⟩ := hflushes.run_fresh port'
  rw [h] at hresult hport
  have halike : outcome.2.Alike outcome'.2 := hport.symm.trans hport'
  obtain ⟨hwritten, hreads, hlog⟩ := halike.record
  exact ⟨hresult.symm.trans hresult', hwritten, hreads, hlog, halike⟩

/-- A hundred bytes wait before the first of two exchanges, and the reply to the first one comes
once more, too late, before the second. -/
theorem onAll_alike_backlog :
    let transport : Transport := { line := 0, bus := 0, options := {} }
    let reply : Bytes := [0x2A, 3, 2, 0, 7, 0xDD, 0x80]
    let uses : List Use := [.exchange ⟨0x2A⟩ 3 [0, 4, 0, 1] 4, .exchange ⟨0x2A⟩ 3 [0, 9, 0, 1] 4]
    let quiet : Port := { timeout := 50, script := [{ parts := [(5, reply)] }, {}] }
    let noisy : Port :=
      { timeout := 50
        waiting := List.replicate 100 0xFF
        script := [{ parts := [(5, reply)] }, { stale := reply }] }
    let outcome := (Use.onAll transport uses).run Port.answer noisy
    noisy.Alike quiet ∧
      outcome.1.map (fun (result, after) => (result.toOption, after.health)) =
        [(some [3, 2, 0, 7], ⟨.on, none⟩),
          (none, ⟨.unknown, some RequestError.responseTimeout.message⟩)] ∧
      outcome.2.written.length = 2 := by
  intro transport reply uses quiet noisy outcome
  have halike : noisy.Alike quiet := rfl
  obtain ⟨hresults, hwritten, -⟩ := onAll_alike halike uses transport
  refine ⟨halike, ?_, ?_⟩
  · rw [hresults]
    decide +kernel
  · rw [hwritten]
    decide +kernel

end ModbusMaster.Serial
