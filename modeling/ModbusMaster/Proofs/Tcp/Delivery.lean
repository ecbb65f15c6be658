import ModbusMaster.Proofs.Tcp.Correlation
import ModbusMaster.Proofs.Tcp.RateLimit
import ModbusMaster.Proofs.Tcp.Termination

/-!
How often one use of a TCP transport writes its frame, and what it leaves behind. `Delivers` lists
what holds of everything that is seen of a use that writes: a frame is written a second time only
on a new stream, when the peer has closed the first instead of answering, and the stream that is
left goes with the result. `Delivered` is the part of it that a use need not return for.
`Transport.deliveries_bounded` says so of every exchange and every send.
-/

namespace ModbusMaster.Tcp

namespace Traffic

def isWrite : Traffic → Bool
  | write .. => true
  | _ => false

/-- A read that found nothing: the peer has closed the stream. -/
def isHangUp : Traffic → Bool
  | read _ (.ok []) => true
  | _ => false

/-- How many writes there are. -/
def writes (traffic : List Traffic) : Nat :=
  traffic.countP isWrite

/-- How many reads found nothing. -/
def hangUps (traffic : List Traffic) : Nat :=
  traffic.countP isHangUp

@[simp] theorem writes_append (a b : List Traffic) : writes (a ++ b) = writes a + writes b :=
  List.countP_append

@[simp] theorem hangUps_append (a b : List Traffic) : hangUps (a ++ b) = hangUps a + hangUps b :=
  List.countP_append

theorem writes_cons_write (stream : Handle) (frame : Bytes) (outcome : Except Interruption Unit)
    (traffic : List Traffic) :
    writes (write stream frame outcome :: traffic) = writes traffic + 1 :=
  List.countP_cons_of_pos rfl

theorem not_mem_of_writes_eq {traffic : List Traffic} {stream : Handle} {frame : Bytes}
    {outcome : Except Interruption Unit} (h : writes traffic = 0) :
    write stream frame outcome ∉ traffic :=
  fun hmem => List.countP_eq_zero.mp h _ hmem rfl

theorem hangUps_eq_zero {traffic : List Traffic} (h : Unread traffic) : hangUps traffic = 0 := by
  apply List.countP_eq_zero.mpr
  intro item hmem hread
  cases item with
  | read stream outcome => exact h stream outcome hmem
  | _ => cases hread

end Traffic

/-- What a result tells of the stream: a reply leaves it open, and a failure leaves none. -/
def Transport.EndsWith {α : Type} (transport : Transport) : Except RequestError α → Prop
  | .ok _ | .error (.exception _) => transport.stream.isSome
  | .error (.io _) | .error .responseTimeout | .error .noConnection | .error (.badFrame _) =>
      transport.stream = none
  | .error _ => False

theorem OfMedium.endsWith {α : Type} {error : RequestError} {transport : Transport}
    (h : OfMedium error) (hnone : transport.stream = none) :
    transport.EndsWith (.error error : Except RequestError α) := by
  cases h <;> exact hnone

/-- The transport says that it is connected when it has a stream, and only then. -/
def Transport.Coherent (transport : Transport) : Prop :=
  transport.connection = if transport.stream.isSome then .connected else .disconnected

/-- How a use has delivered its frame of which `seen` is seen, whether or not it returns. -/
structure Delivered (transport : Transport) (frame : Bytes) (seen : List Traffic) : Prop where
  twice : Traffic.writes seen ≤ 2
  /-- Every write is one of the frame, byte for byte. -/
  same : ∀ stream written outcome, .write stream written outcome ∈ seen → written = frame
  /-- Without a stream nothing is written. -/
  unopened : transport.stream = none → (∀ start stream, .attempt start (.ok stream) ∉ seen) →
    Traffic.writes seen = 0
  /-- A second write follows a first one that succeeded and a read that found nothing; it is the
  first thing on a new stream. -/
  again : 1 < Traffic.writes seen → ∃ first stream start stream' outcome later,
    seen = first ++ [.write stream frame (.ok ()), .read stream (.ok []), .close stream,
      .attempt start (.ok stream'), .write stream' frame outcome] ++ later ∧
    Traffic.writes first = 0 ∧ Traffic.writes later = 0

/-- How a use that returns has delivered its frame, and what it leaves. -/
structure Delivers {α : Type} (transport : Transport) (frame : Bytes) (seen : List Traffic)
    (result : Except RequestError α) (transport' : Transport) : Prop
    extends Delivered transport frame seen where
  /-- When the peer has closed the second stream too, that is the result. -/
  ended : 1 < Traffic.hangUps seen → result = .error (.io .unexpectedEof)
  ends : transport'.EndsWith result
  coherent : transport.Coherent → transport'.Coherent

/-- The health that is recorded at the end is no part of the connection. -/
theorem Delivers.after_result {α : Type} {transport transport' : Transport} {frame : Bytes}
    {seen : List Traffic} {result : Except RequestError α}
    (h : Delivers transport frame seen result transport') :
    Delivers transport frame seen result (transport'.after result) :=
  ⟨h.toDelivered, h.ended, h.ends, h.coherent⟩

namespace Transport

/-! ### What is seen -/

variable {transport transport' : Transport} {now : Instant} {frame : Bytes} {length : Nat}
  {seen : List Traffic} {result : Except RequestError Bytes}

theorem Connects.writes_eq {outcome : Except RequestError Unit}
    (h : transport.Connects now seen outcome transport') : Traffic.writes seen = 0 := by
  cases h <;> rfl

/-- What is seen before the first write: nothing if the stream was held before, otherwise that it
was opened. -/
inductive Opening (transport : Transport) (stream : Handle) : List Traffic → Prop where
  | held (stream_eq : transport.stream = some stream) : Opening transport stream []
  | opened {start : Instant} (stream_eq : transport.stream = none) :
      Opening transport stream [.attempt start (.ok stream)]

/-- A frame is written once at most, on the stream that is held or has just been opened. -/
inductive WritesOnce (transport : Transport) (frame : Bytes) : List Traffic → Prop where
  | never {seen : List Traffic} (unwritten : Traffic.writes seen = 0) :
      WritesOnce transport frame seen
  | once {opening later : List Traffic} {stream : Handle} {outcome : Except Interruption Unit}
      (opens : transport.Opening stream opening) (unwritten : Traffic.writes later = 0) :
      WritesOnce transport frame (opening ++ .write stream frame outcome :: later)

theorem Connects.opening {stream : Handle} (h : transport.Connects now seen (.ok ()) transport')
    (hstream : transport'.stream = some stream) : transport.Opening stream seen := by
  cases hnone : transport.stream with
  | none =>
    obtain ⟨start, rfl⟩ := h.opened_eq hnone hstream
    exact .opened hnone
  | some held =>
    cases h with
    | held => exact .held hstream
    | opened stream_eq =>
      rw [hnone] at stream_eq
      cases stream_eq

theorem Opening.writes_eq {stream : Handle} (h : transport.Opening stream seen) :
    Traffic.writes seen = 0 := by
  cases h <;> rfl

theorem WritesOnce.append {closing : List Traffic} (h : transport.WritesOnce frame seen)
    (hclosing : Traffic.writes closing = 0) : transport.WritesOnce frame (seen ++ closing) := by
  cases h with
  | never unwritten =>
    apply WritesOnce.never
    rw [Traffic.writes_append, unwritten, hclosing]
  | once opens unwritten =>
    rw [List.append_assoc, List.cons_append]
    apply WritesOnce.once opens
    rw [Traffic.writes_append, unwritten, hclosing]

theorem WritesOnce.writes_le (h : transport.WritesOnce frame seen) : Traffic.writes seen ≤ 1 := by
  cases h with
  | never unwritten => omega
  | once opens unwritten =>
    apply Nat.le_of_eq
    rw [Traffic.writes_append, opens.writes_eq, Traffic.writes_cons_write, unwritten]

theorem WritesOnce.same {stream : Handle} {written : Bytes} {outcome : Except Interruption Unit}
    (h : transport.WritesOnce frame seen) (hmem : .write stream written outcome ∈ seen) :
    written = frame := by
  cases h with
  | never unwritten => exact absurd hmem (Traffic.not_mem_of_writes_eq unwritten)
  | once opens unwritten =>
    rcases List.mem_append.mp hmem with hmem | hmem
    · exact absurd hmem (Traffic.not_mem_of_writes_eq opens.writes_eq)
    · rcases List.mem_cons.mp hmem with heq | hmem
      · exact (Traffic.write.inj heq).2.1
      · exact absurd hmem (Traffic.not_mem_of_writes_eq unwritten)

theorem WritesOnce.unopened (h : transport.WritesOnce frame seen) (hnone : transport.stream = none)
    (hopened : ∀ start stream, .attempt start (.ok stream) ∉ seen) : Traffic.writes seen = 0 := by
  cases h with
  | never unwritten => exact unwritten
  | once opens =>
    cases opens with
    | held stream_eq =>
      rw [hnone] at stream_eq
      cases stream_eq
    | opened => exact absurd List.mem_cons_self (hopened _ _)

/-- What is written once at most is delivered. -/
theorem WritesOnce.delivered (h : transport.WritesOnce frame seen) :
    Delivered transport frame seen where
  twice := Nat.le_succ_of_le h.writes_le
  same := fun _ _ _ => h.same
  unopened := h.unopened
  again := fun hlt => absurd h.writes_le (Nat.not_le_of_lt hlt)

theorem WritesOnce.delivers {α : Type} {result : Except RequestError α}
    (h : transport.WritesOnce frame seen) (hhangUps : Traffic.hangUps seen ≤ 1)
    (hends : transport'.EndsWith result) (hcoherent : transport.Coherent → transport'.Coherent) :
    Delivers transport frame seen result transport' where
  toDelivered := h.delivered
  ended := fun hlt => absurd hhangUps (Nat.not_le_of_lt hlt)
  ends := hends
  coherent := hcoherent

theorem Round.writesOnce {outcome : Except RequestError Bytes}
    (h : transport.Round now frame seen outcome transport') : transport.WritesOnce frame seen := by
  cases h with
  | unconnected connects => exact .never connects.writes_eq
  | unwritten connects stream_eq => exact .once (connects.opening stream_eq) rfl
  | unread connects stream_eq => exact .once (connects.opening stream_eq) rfl
  | answered connects stream_eq => exact .once (connects.opening stream_eq) rfl

/-- A round that has read something, or nothing, has written its frame before and closed nothing
yet. -/
theorem Round.opening {raw : Bytes} {stream : Handle}
    (h : transport.Round now frame seen (.ok raw) transport')
    (hstream : transport'.stream = some stream) :
    ∃ opening, seen = opening ++ [.write stream frame (.ok ()), .read stream (.ok raw)] ∧
      transport.Opening stream opening := by
  cases h with
  | answered connects stream_eq =>
    rw [hstream] at stream_eq
    cases stream_eq
    exact ⟨_, rfl, connects.opening hstream⟩

theorem Round.hangUps_le {outcome : Except RequestError Bytes}
    (h : transport.Round now frame seen outcome transport') : Traffic.hangUps seen ≤ 1 := by
  cases h with
  | unconnected connects =>
    rw [Traffic.hangUps_eq_zero connects.unread]
    exact Nat.zero_le 1
  | unwritten connects =>
    rw [Traffic.hangUps_append, Traffic.hangUps_eq_zero connects.unread]
    exact Nat.zero_le 1
  | unread connects =>
    rw [Traffic.hangUps_append, Traffic.hangUps_eq_zero connects.unread]
    exact Nat.zero_le 1
  | answered connects stream_eq =>
    rename_i raw
    rw [Traffic.hangUps_append, Traffic.hangUps_eq_zero connects.unread]
    -- of the two things that follow only the read can have found nothing
    cases raw with
    | nil => exact Nat.le_refl 1
    | cons => exact Nat.zero_le 1

theorem Round.eq_of_hangUps {outcome : Except RequestError Bytes}
    (h : transport.Round now frame seen outcome transport') (hpos : 0 < Traffic.hangUps seen) :
    outcome = .ok [] := by
  obtain ⟨item, hmem, hread⟩ := List.countP_pos_iff.mp hpos
  cases item with
  | read stream found =>
    rcases found with _ | _ | _
    case ok.nil => exact h.hangUp hmem
    all_goals cases hread
  | _ => cases hread

theorem Settles.writes_eq {outcome : Except RequestError Bytes}
    (h : transport.Settles length outcome seen result transport') : Traffic.writes seen = 0 := by
  cases h <;> rfl

/-! ### What is left -/

theorem Connects.fails {α : Type} {error : RequestError}
    (h : transport.Connects now seen (.error error) transport') :
    transport'.EndsWith (.error error : Except RequestError α) := by
  cases h with
  | early stream_eq => exact stream_eq
  | failed _ _ stream_eq => exact (ofMedium_connectError _).endsWith stream_eq

theorem Round.fails {error : RequestError}
    (h : transport.Round now frame seen (.error error) transport') :
    transport'.EndsWith (.error error : Except RequestError Bytes) := by
  cases h with
  | unconnected connects => exact connects.fails
  | unwritten => exact (ofMedium_exchangeError _).endsWith rfl
  | unread => exact (ofMedium_exchangeError _).endsWith rfl

/-- Whatever passes for an answer leaves the stream open. -/
theorem Round.settles {outcome : Except RequestError Bytes} {closing : List Traffic}
    {transport'' : Transport} (h : transport.Round now frame seen outcome transport')
    (hsettles : transport'.Settles length outcome closing result transport'') :
    transport''.EndsWith result := by
  cases hsettles with
  | failed => exact h.fails
  | ended => exact rfl
  | rejected => exact rfl
  | accepted raw_ne isReply =>
    rename_i raw
    obtain ⟨stream, hstream⟩ := h.stream_isSome
    have hopen : transport'.stream.isSome := hstream ▸ rfl
    -- what was accepted is no bad frame, so it is a reply or a refusal
    have hanswered := (answered_or_badFrame raw length).resolve_right
      fun ⟨cause, heq⟩ => isReply cause heq
    generalize Frame.Tcp.decode raw length = result at hanswered
    cases result with
    | ok reply => exact hopen
    | error error =>
      cases error with
      | exception code => exact hopen
      | _ => exact hanswered.elim

theorem Exchanges.endsWith (h : transport.Exchanges now frame length seen result transport') :
    transport'.EndsWith result := by
  cases h with
  | once round outcome_ne settles => exact round.settles settles
  | again round stream_eq due round' settles => exact round'.settles settles

/-! ### Whole uses -/

/-- The peer has closed the first stream, and what follows writes once at most. -/
theorem WritesOnce.delivered_again {opening retry : List Traffic} {stream : Handle}
    {dropped : Transport} (h : dropped.WritesOnce frame retry) (hnone : dropped.stream = none)
    (hopens : transport.Opening stream opening) :
    Delivered transport frame
      (opening ++ [.write stream frame (.ok ()), .read stream (.ok []), .close stream] ++
        retry) := by
  have hopening := hopens.writes_eq
  have hwrites : Traffic.writes
      (opening ++ [.write stream frame (.ok ()), .read stream (.ok []), .close stream] ++ retry) =
        1 + Traffic.writes retry := by
    rw [Traffic.writes_append, Traffic.writes_append, hopening, Traffic.writes_cons_write]
    rfl
  constructor
  case twice =>
    have := h.writes_le
    omega
  case same =>
    intro other written outcome hmem
    rcases List.mem_append.mp hmem with hmem | hmem
    · rcases List.mem_append.mp hmem with hmem | hmem
      · exact absurd hmem (Traffic.not_mem_of_writes_eq hopening)
      · simp only [List.mem_cons, Traffic.write.injEq, reduceCtorEq, List.not_mem_nil,
          or_false] at hmem
        exact hmem.2.1
    · exact h.same hmem
  case unopened =>
    intro hstream hopened
    cases hopens with
    | held stream_eq =>
      rw [hstream] at stream_eq
      cases stream_eq
    | opened => exact absurd List.mem_cons_self (hopened _ _)
  case again =>
    intro hlt
    cases h with
    | never unwritten => omega
    | once opens unwritten =>
      rename_i later stream' outcome
      -- no stream is left of the first round, so the second write is on a new one
      cases opens with
      | held stream_eq =>
        rw [hnone] at stream_eq
        cases stream_eq
      | opened stream_eq =>
        rename_i start
        refine ⟨opening, stream, start, stream', outcome, later, ?_, hopening, unwritten⟩
        simp only [List.append_assoc, List.cons_append, List.nil_append]

/-- What is seen of two rounds, of which the first ended with nothing read, and of what ends the
second. -/
theorem Round.delivered_again {again : List Traffic} {later : Instant} {stream : Handle}
    {first second : Transport} {outcome : Except RequestError Bytes} {closing : List Traffic}
    (round : transport.Round now frame seen (.ok []) first) (stream_eq : first.stream = some stream)
    (round' : first.dropped.Round later frame again outcome second)
    (hclosing : Traffic.writes closing = 0) :
    Delivered transport frame (seen ++ .close stream :: again ++ closing) := by
  obtain ⟨opening, rfl, hopens⟩ := round.opening stream_eq
  have hdelivered := (round'.writesOnce.append hclosing).delivered_again rfl hopens
  simpa only [List.append_assoc, List.cons_append, List.nil_append] using hdelivered

theorem Exchanges.delivers (h : transport.Exchanges now frame length seen result transport')
    (hcoherent : transport.Coherent → transport'.Coherent) :
    Delivers transport frame seen result transport' := by
  have hends := h.endsWith
  cases h with
  | once round outcome_ne settles =>
    apply (round.writesOnce.append settles.writes_eq).delivers
    · rw [Traffic.hangUps_append, Traffic.hangUps_eq_zero settles.unread]
      exact round.hangUps_le
    · exact hends
    · exact hcoherent
  | again round stream_eq due round' settles =>
    rename_i first second closing _ connected _ stream _
    have hfirst := round.hangUps_le
    constructor
    case toDelivered => exact round.delivered_again stream_eq round' settles.writes_eq
    case ended =>
      -- the first round has one hang-up at most, so another one is in the second
      intro hlt
      have hclose : Traffic.hangUps (.close stream :: second) = Traffic.hangUps second := rfl
      rw [Traffic.hangUps_append, Traffic.hangUps_append, hclose,
        Traffic.hangUps_eq_zero settles.unread] at hlt
      cases round'.eq_of_hangUps (by omega)
      cases settles with
      | ended => rfl
      | accepted raw_ne => exact absurd rfl raw_ne
      | rejected raw_ne => exact absurd rfl raw_ne
    case ends => exact hends
    case coherent => exact hcoherent

/-- What an exchange has written before it panics is delivered like any other. -/
theorem Stops.delivered {cause : Panic} (h : transport.Stops now frame length seen cause) :
    Delivered transport frame seen := by
  cases h with
  | once round => exact round.writesOnce.delivered
  | waiting round => exact (round.writesOnce.append rfl).delivered
  | again round stream_eq round' =>
    have hdelivered := round.delivered_again stream_eq round' (rfl : Traffic.writes [] = 0)
    simpa only [List.append_nil] using hdelivered

/-- Coherence lasts whatever is seen. -/
theorem Coherent.kept (before : Prop) :
    Kept fun transport _ => before → transport.Coherent where
  later := fun h _ _ => h
  seen := fun h _ _ _ _ _ => h
  closed := fun _ _ _ _ _ _ => rfl
  attempted := by
    intro transport transport' watch after _ _ _ _ start outcome _ _ _ hafter _
    subst hafter
    cases outcome <;> rfl

theorem disconnect_of_none (hnone : transport.stream = none) :
    transport.disconnect = pure { transport with connection := .disconnected } := by
  unfold disconnect
  rw [hnone]

variable {watch : Watch} {unit : UnitId} {function : UInt8} {payload : Bytes}

theorem send_of_error {cause : InvalidRequest}
    (hencode : Frame.Tcp.encode unit function payload = .error cause) :
    transport.send unit function payload = pure (.error (.badRequest cause),
      transport.after (.error (.badRequest cause) : Except RequestError Unit)) := by
  unfold send
  rw [hencode]

theorem exchange_of_error {cause : InvalidRequest}
    (hencode : Frame.Tcp.encode unit function payload = .error cause) :
    transport.exchange unit function payload length = pure (.error (.badRequest cause),
      transport.after (.error (.badRequest cause) : Except RequestError Bytes)) := by
  unfold exchange
  rw [hencode]

theorem exchange_delivers (hencode : Frame.Tcp.encode unit function payload = .ok frame) :
    (transport.exchange unit function payload length).Ensures watched
      (fun outcome after => ∃ seen, after.traffic = watch.traffic ++ seen ∧
        Delivers transport frame seen outcome.1 outcome.2) watch := by
  apply (exchange_rounds (Coherent.kept transport.Coherent) id hencode).mono
  intro outcome after h
  obtain ⟨transport', seen, heq, hcoherent, -, htraffic, hexchanges⟩ := h
  rw [heq]
  exact ⟨seen, htraffic, (hexchanges.delivers hcoherent).after_result⟩

/-- What is written once at most, without a read, is a send. -/
theorem WritesOnce.sends {result : Except RequestError Unit}
    (h : transport.WritesOnce frame seen) (hunread : Traffic.Unread seen)
    (hends : transport'.EndsWith result) (hcoherent : transport.Coherent → transport'.Coherent) :
    Delivers transport frame seen result (transport'.after result) ∧ Traffic.writes seen ≤ 1 ∧
      Traffic.Unread seen := by
  have hhangUps : Traffic.hangUps seen ≤ 1 := by
    rw [Traffic.hangUps_eq_zero hunread]
    exact Nat.zero_le 1
  exact ⟨(h.delivers hhangUps hends hcoherent).after_result, h.writes_le, hunread⟩

theorem send_delivers (hencode : Frame.Tcp.encode unit function payload = .ok frame) :
    (transport.send unit function payload).Ensures watched
      (fun outcome after => ∃ seen, after.traffic = watch.traffic ++ seen ∧
        Delivers transport frame seen outcome.1 outcome.2 ∧ Traffic.writes seen ≤ 1 ∧
        Traffic.Unread seen) watch := by
  unfold send
  rw [hencode]
  have hkept := Coherent.kept transport.Coherent
  apply (connect_ensures hkept id).bind
  intro outcome first h
  rcases outcome with ⟨connection, connected⟩
  obtain ⟨hcoherent, -, seen, htraffic, hconnects⟩ := h
  cases connection with
  | error error =>
    have honce : transport.WritesOnce frame seen := .never hconnects.writes_eq
    exact ⟨seen, htraffic, honce.sends hconnects.unread hconnects.fails hcoherent⟩
  | ok _ =>
    obtain ⟨stream, hstream⟩ := hconnects.stream_isSome
    have hopens := hconnects.opening hstream
    apply (writeFrame_ensures hkept hcoherent hstream).bind
    intro outcome after h
    obtain ⟨hwritten, -, hcases⟩ := h
    cases hcases with
    | inl hok =>
      obtain ⟨rfl, hwrite⟩ := hok
      refine ⟨seen ++ [.write stream frame (.ok ())], ?_, ?_⟩
      · rw [hwrite, htraffic, List.append_assoc]
      · apply (WritesOnce.once hopens rfl).sends
        · exact hconnects.unread.append (by simp [Traffic.Unread])
        · exact Option.isSome_of_eq_some hstream
        · exact hwritten
    | inr hfailed =>
      obtain ⟨interruption, rfl, hwrite⟩ := hfailed
      refine ⟨seen ++ [.write stream frame (.error interruption), .close stream], ?_, ?_⟩
      · rw [hwrite, htraffic, List.append_assoc]
      · apply (WritesOnce.once hopens rfl).sends
        · exact hconnects.unread.append (by simp [Traffic.Unread])
        · exact (ofMedium_exchangeError interruption).endsWith rfl
        · exact hwritten

end Transport

/-- Whatever a transport is used for, it stays coherent. -/
theorem Use.on_coherent (use : Use) {transport : Transport} {watch : Watch}
    (h : transport.Coherent) :
    (use.on transport).Ensures watched (fun outcome _ => outcome.2.Coherent) watch := by
  have hkept := Transport.Coherent.kept transport.Coherent
  cases use with
  | connect =>
    apply (Transport.connect_ensures hkept id).bind
    intro outcome after hconnect
    exact hconnect.1 h
  | disconnect =>
    cases hstream : transport.stream with
    | none =>
      show (transport.disconnect >>= _).Ensures _ _ _
      rw [Transport.disconnect_of_none hstream]
      exact hstream ▸ rfl
    | some stream =>
      apply (Transport.disconnect_ensures hkept id hstream).bind
      intro outcome after hdisconnect
      exact hdisconnect.2.1 h
  | send unit function payload =>
    cases hencode : Frame.Tcp.encode unit function payload with
    | error cause =>
      show (transport.send unit function payload >>= _).Ensures _ _ _
      rw [Transport.send_of_error hencode]
      exact h
    | ok frame =>
      apply (Transport.send_delivers hencode).bind
      intro outcome after hsend
      obtain ⟨seen, -, hdelivers, -⟩ := hsend
      exact hdelivers.coherent h
  | exchange unit function payload length =>
    cases hencode : Frame.Tcp.encode unit function payload with
    | error cause =>
      show (transport.exchange unit function payload length).Ensures _ _ _
      rw [Transport.exchange_of_error hencode]
      exact h
    | ok frame =>
      apply (Transport.exchange_delivers hencode).mono
      intro outcome after hexchange
      obtain ⟨seen, -, hdelivers⟩ := hexchange
      exact hdelivers.coherent h

/-- In every state that a transport comes to, it is coherent. -/
theorem Session.coherent {resolve : String → Option Host} {settings : Settings}
    {transport transport' : Transport} {watch watch' : Watch}
    (hof : Transport.of resolve settings = .ok transport)
    (hsession : Session (fun _ => watched) Watch.Waits transport watch transport' watch') :
    transport'.Coherent := by
  have hstart : transport.Coherent := by
    obtain ⟨host, rfl⟩ := Transport.of_eq_ok hof
    rfl
  apply Session.invariant (fun transport _ => transport.Coherent) hsession hstart
  · exact fun _ _ _ h _ => h
  · exact fun use _ _ h => use.on_coherent h

end ModbusMaster.Tcp
