import ModbusMaster.Proofs.Tcp.Traffic

/-!
What each operation of a TCP transport comes to when anything may happen on the network. `Connects`
lists the cases of connecting, `Round` those of connecting, writing and reading once, `Settles` and
`Exchanges` those of a whole exchange, each with what is seen of it; the `_ensures` theorems say
that there are no others, and that transport and onlooker keep what every single thing that is seen
keeps (`Kept`).
-/

namespace ModbusMaster.Tcp.Transport

/-- What is seen of connecting at `now`, the result, and the transport afterwards. -/
inductive Connects (transport : Transport) (now : Instant) :
    List Traffic → Except RequestError Unit → Transport → Prop where
  | held {stream : Handle} (stream_eq : transport.stream = some stream) :
      Connects transport now [] (.ok ()) transport
  | early (stream_eq : transport.stream = none) (tooEarly : transport.tooEarly now) :
      Connects transport now [] (.error .noConnection) transport
  | opened {start : Instant} {stream : Handle} {transport' : Transport}
      (stream_eq : transport.stream = none) (due : transport.tooEarly now = false)
      (stream_eq' : transport'.stream = some stream) :
      Connects transport now [.attempt start (.ok stream)] (.ok ()) transport'
  | failed {start : Instant} {interruption : Interruption} {transport' : Transport}
      (stream_eq : transport.stream = none) (due : transport.tooEarly now = false)
      (stream_eq' : transport'.stream = none) :
      Connects transport now [.attempt start (.error interruption)]
        (.error (connectError interruption)) transport'

/-- What is seen of connecting, writing a frame and reading once, what was read, and the transport
afterwards. -/
inductive Round (transport : Transport) (now : Instant) (frame : Bytes) :
    List Traffic → Except RequestError Bytes → Transport → Prop where
  | unconnected {seen : List Traffic} {error : RequestError} {transport' : Transport}
      (connects : transport.Connects now seen (.error error) transport') :
      Round transport now frame seen (.error error) transport'
  | unwritten {seen : List Traffic} {connected : Transport} {stream : Handle}
      {interruption : Interruption} (connects : transport.Connects now seen (.ok ()) connected)
      (stream_eq : connected.stream = some stream) :
      Round transport now frame
        (seen ++ [.write stream frame (.error interruption), .close stream])
        (.error (exchangeError interruption)) connected.dropped
  | unread {seen : List Traffic} {connected : Transport} {stream : Handle}
      {interruption : Interruption} (connects : transport.Connects now seen (.ok ()) connected)
      (stream_eq : connected.stream = some stream) :
      Round transport now frame
        (seen ++ [.write stream frame (.ok ()), .read stream (.error interruption),
          .close stream])
        (.error (exchangeError interruption)) connected.dropped
  | answered {seen : List Traffic} {connected : Transport} {stream : Handle} {raw : Bytes}
      (connects : transport.Connects now seen (.ok ()) connected)
      (stream_eq : connected.stream = some stream) :
      Round transport now frame
        (seen ++ [.write stream frame (.ok ()), .read stream (.ok raw)]) (.ok raw) connected

/-- What is seen of the end of an exchange, whose last round had an outcome: the result, and the
transport afterwards. What is no reply closes the stream. -/
inductive Settles (transport : Transport) (length : Nat) :
    Except RequestError Bytes → List Traffic → Except RequestError Bytes → Transport → Prop where
  | failed {error : RequestError} :
      Settles transport length (.error error) [] (.error error) transport
  | ended {stream : Handle} (stream_eq : transport.stream = some stream) :
      Settles transport length (.ok []) [.close stream] (.error (.io .unexpectedEof))
        transport.dropped
  | accepted {raw : Bytes} (raw_ne : raw ≠ [])
      (isReply : ∀ cause, Frame.Tcp.decode raw length ≠ .error (.badFrame cause)) :
      Settles transport length (.ok raw) [] (Frame.Tcp.decode raw length) transport
  | rejected {raw : Bytes} {cause : FrameError} {stream : Handle} (raw_ne : raw ≠ [])
      (stream_eq : transport.stream = some stream)
      (decode_eq : Frame.Tcp.decode raw length = .error (.badFrame cause)) :
      Settles transport length (.ok raw) [.close stream] (.error (.badFrame cause))
        transport.dropped

/-- What is seen of an exchange, its result, and the transport afterwards: one round, or a second
one on a new stream when the peer has closed the first. -/
inductive Exchanges (transport : Transport) (now : Instant) (frame : Bytes) (length : Nat) :
    List Traffic → Except RequestError Bytes → Transport → Prop where
  | once {seen closing : List Traffic} {outcome result : Except RequestError Bytes}
      {middle transport' : Transport} (round : transport.Round now frame seen outcome middle)
      (outcome_ne : outcome ≠ .ok [])
      (settles : middle.Settles length outcome closing result transport') :
      Exchanges transport now frame length (seen ++ closing) result transport'
  | again {seen seen' closing : List Traffic} {outcome result : Except RequestError Bytes}
      {first second transport' : Transport} {stream : Handle} {later : Instant}
      (round : transport.Round now frame seen (.ok []) first)
      (stream_eq : first.stream = some stream) (due : first.dropped.tooEarly later = false)
      (round' : first.dropped.Round later frame seen' outcome second)
      (settles : second.Settles length outcome closing result transport') :
      Exchanges transport now frame length (seen ++ .close stream :: seen' ++ closing) result
        transport'

variable {transport : Transport} {watch : Watch} {inv : Transport → Watch → Prop}

/-- Reporting shows nothing to an onlooker but takes its time. -/
theorem report_ensures (event : Event) (between : Watch) (h : watch.Passed between) :
    (Action.report event).Ensures watched (fun _ after => watch.Passed after) between := by
  rintro _ after ⟨time, hclock, -, rfl⟩
  exact ⟨h.1, Nat.le_trans h.2 hclock⟩

theorem connect_ensures (hkept : Kept inv) (h : inv transport watch) :
    transport.connect.Ensures watched
      (fun outcome after => inv outcome.2 after ∧
        outcome.2.settings = transport.settings ∧
        ∃ new, after.traffic = watch.traffic ++ new ∧
          transport.Connects watch.clock new outcome.1 outcome.2) watch := by
  unfold connect
  split
  next stream hstream =>
    exact ⟨h, rfl, [], (List.append_nil _).symm, .held hstream⟩
  next hstream =>
    refine Action.ensures_perform_bind.mpr ?_
    rintro _ first ⟨time, hclock, rfl, rfl⟩
    split
    next hearly =>
      refine (report_ensures _ _ (.refl _)).bind fun _ after ⟨htraffic, hreport⟩ => ?_
      have hheld := hkept.later h (Nat.le_trans hclock hreport) htraffic
      refine ⟨hheld, rfl, [], ?_, .early hstream hearly⟩
      exact htraffic.trans (List.append_nil _).symm
    next hdue =>
      have hdue' : transport.tooEarly watch.clock = false := by simpa using hdue
      refine Action.ensures_perform_bind.mpr ?_
      rintro (start : Instant) second ⟨time', hstart, rfl, rfl⟩
      refine Action.ensures_perform_bind.mpr ?_
      rintro outcome third ⟨time'', hend, -, rfl⟩
      -- the attempt starts at the second reading, which is not before the first one
      have hbegin : start ≤ time'' := Nat.le_trans hstart hend
      cases outcome with
      | ok stream =>
        refine (report_ensures _ _ (.refl _)).bind fun _ after ⟨htraffic, hreport⟩ => ?_
        have hlater := Nat.le_trans hbegin hreport
        refine ⟨?_, rfl, _, htraffic, .opened hstream hdue' rfl⟩
        exact hkept.attempted h (Nat.le_trans hclock hlater) hstream hdue' hclock hlater htraffic
          rfl
      | error interruption =>
        refine (report_ensures _ _ (.refl _)).bind fun _ after ⟨htraffic, hreport⟩ => ?_
        have hlater := Nat.le_trans hbegin hreport
        refine ⟨?_, rfl, _, htraffic, .failed hstream hdue' hstream⟩
        refine hkept.attempted h (Nat.le_trans hclock hlater) hstream hdue' hclock hlater htraffic
          ?_
        rw [hstream]
        rfl

theorem Connects.stream_isSome {now : Instant} {seen : List Traffic} {transport' : Transport}
    (h : transport.Connects now seen (.ok ()) transport') :
    ∃ stream, transport'.stream = some stream := by
  cases h with
  | held stream_eq => exact ⟨_, stream_eq⟩
  | opened _ _ stream_eq => exact ⟨_, stream_eq⟩

theorem disconnect_ensures {stream : Handle} (hkept : Kept inv) (h : inv transport watch)
    (hstream : transport.stream = some stream) :
    transport.disconnect.Ensures watched
      (fun transport' after => transport' = transport.dropped ∧ inv transport' after ∧
        after.traffic = watch.traffic ++ [.close stream] ∧ watch.clock ≤ after.clock) watch := by
  unfold disconnect
  rw [hstream]
  refine Action.ensures_perform_bind.mpr ?_
  rintro _ first ⟨time, hclock, -, rfl⟩
  refine (report_ensures _ _ (.refl _)).bind fun _ after ⟨htraffic, hreport⟩ => ?_
  have hlater := Nat.le_trans hclock hreport
  exact ⟨rfl, hkept.closed h hlater hstream htraffic, htraffic, hlater⟩

theorem writeFrame_ensures {frame : Bytes} {stream : Handle} (hkept : Kept inv)
    (h : inv transport watch) (hstream : transport.stream = some stream) :
    (transport.writeFrame frame).Ensures watched
      (fun outcome after => inv outcome.2 after ∧ watch.clock ≤ after.clock ∧
        ((outcome = (.ok (), transport) ∧
            after.traffic = watch.traffic ++ [.write stream frame (.ok ())]) ∨
          ∃ interruption, outcome = (.error (exchangeError interruption), transport.dropped) ∧
            after.traffic = watch.traffic ++
              [.write stream frame (.error interruption), .close stream])) watch := by
  unfold writeFrame
  rw [hstream]
  refine (reportFrame_keeps report_ensures (.refl watch)).bind fun _ first hfirst => ?_
  refine (reportBytes_keeps report_ensures hfirst).bind fun _ second ⟨htraffic, hwait⟩ => ?_
  refine Action.ensures_perform_bind.mpr ?_
  rintro outcome third ⟨time, hwrite, -, rfl⟩
  have hlater := Nat.le_trans hwait hwrite
  have hseen : (second.after time ⟨.transmit stream frame _, outcome⟩).traffic =
      watch.traffic ++ [.write stream frame outcome] := by
    rw [← htraffic]
    rfl
  have hheld := hkept.seen h hlater hseen rfl fun _ => rfl
  cases outcome with
  | ok written => exact ⟨hheld, hlater, .inl ⟨rfl, hseen⟩⟩
  | error interruption =>
    refine (disconnect_ensures hkept hheld hstream).bind ?_
    rintro _ after ⟨rfl, hafter, hclose, hdrop⟩
    refine ⟨hafter, Nat.le_trans hlater hdrop, .inr ⟨interruption, rfl, ?_⟩⟩
    rw [hclose, hseen, List.append_assoc]
    rfl

theorem readOnce_ensures {stream : Handle} (hkept : Kept inv) (h : inv transport watch)
    (hstream : transport.stream = some stream) :
    transport.readOnce.Ensures watched
      (fun outcome after => inv outcome.2 after ∧ watch.clock ≤ after.clock ∧
        ((∃ raw, outcome = (.ok raw, transport) ∧
            after.traffic = watch.traffic ++ [.read stream (.ok raw)]) ∨
          ∃ interruption, outcome = (.error (exchangeError interruption), transport.dropped) ∧
            after.traffic = watch.traffic ++
              [.read stream (.error interruption), .close stream])) watch := by
  unfold readOnce
  rw [hstream]
  refine Action.ensures_perform_bind.mpr ?_
  rintro outcome first ⟨time, hread, -, rfl⟩
  have hheld : inv transport (watch.after time ⟨.receive stream _ _, outcome⟩) :=
    hkept.seen h hread rfl rfl fun _ => rfl
  cases outcome with
  | ok raw =>
    refine (reportBytes_keeps report_ensures (.refl _)).bind fun _ after ⟨htraffic, hreport⟩ => ?_
    have hlater := hkept.later hheld hreport htraffic
    exact ⟨hlater, Nat.le_trans hread hreport, .inl ⟨raw, rfl, htraffic⟩⟩
  | error interruption =>
    refine (disconnect_ensures hkept hheld hstream).bind ?_
    rintro _ after ⟨rfl, hafter, hclose, hdrop⟩
    refine ⟨hafter, Nat.le_trans hread hdrop, .inr ⟨interruption, rfl, ?_⟩⟩
    rw [hclose]
    exact List.append_assoc _ _ _

theorem attempt_ensures {frame : Bytes} (hkept : Kept inv) (h : inv transport watch) :
    (transport.attempt frame).Ensures watched
      (fun outcome after => inv outcome.2 after ∧ outcome.2.settings = transport.settings ∧
        ∃ new, after.traffic = watch.traffic ++ new ∧
          transport.Round watch.clock frame new outcome.1 outcome.2) watch := by
  unfold attempt
  refine (connect_ensures hkept h).bind ?_
  rintro ⟨connection, connected⟩ first ⟨hheld, hsettings, seen, htraffic, hconnects⟩
  cases connection with
  | error error => exact ⟨hheld, hsettings, seen, htraffic, .unconnected hconnects⟩
  | ok _ =>
    -- each failure from here on closes the stream that was connected
    obtain ⟨stream, hstream⟩ := hconnects.stream_isSome
    refine (writeFrame_ensures hkept hheld hstream).bind ?_
    rintro _ second ⟨hwritten, -, ⟨rfl, hwrite⟩ | ⟨interruption, rfl, hwrite⟩⟩
    · refine (readOnce_ensures hkept hwritten hstream).mono ?_
      rintro _ after ⟨hread, -, ⟨raw, rfl, hreceive⟩ | ⟨interruption, rfl, hreceive⟩⟩
      · refine ⟨hread, hsettings, _, ?_, .answered hconnects hstream⟩
        rw [hreceive, hwrite, htraffic]
        simp
      · refine ⟨hread, hsettings, _, ?_, .unread hconnects hstream⟩
        rw [hreceive, hwrite, htraffic]
        simp
    · refine ⟨hwritten, hsettings, _, ?_, .unwritten hconnects hstream⟩
      rw [hwrite, htraffic, List.append_assoc]

theorem Round.stream_isSome {now : Instant} {frame raw : Bytes} {seen : List Traffic}
    {transport' : Transport} (h : transport.Round now frame seen (.ok raw) transport') :
    ∃ stream, transport'.stream = some stream := by
  cases h with
  | answered _ stream_eq => exact ⟨_, stream_eq⟩

theorem acceptReply_ensures {raw : Bytes} {length : Nat} {stream : Handle}
    (hkept : Kept inv) (h : inv transport watch) (hstream : transport.stream = some stream)
    (hraw : raw ≠ []) :
    (transport.acceptReply raw length).Ensures watched
      (fun outcome after => inv outcome.2 after ∧ outcome.2.settings = transport.settings ∧
        ∃ new, after.traffic = watch.traffic ++ new ∧
          transport.Settles length (.ok raw) new outcome.1 outcome.2) watch := by
  unfold acceptReply
  refine Action.ensures_require_bind not_watched_panic fun _ => ?_
  split
  next reply hdecode =>
    refine (reportFrame_keeps report_ensures (.refl _)).bind fun _ after ⟨htraffic, hreport⟩ => ?_
    refine ⟨hkept.later h hreport htraffic, rfl, [], by simp [htraffic], ?_⟩
    rw [← hdecode]
    exact .accepted hraw fun cause heq => by rw [hdecode] at heq; cases heq
  next cause hdecode =>
    refine (disconnect_ensures hkept h hstream).bind ?_
    rintro _ after ⟨rfl, hheld, htraffic, -⟩
    exact ⟨hheld, rfl, _, htraffic, .rejected hraw hstream hdecode⟩
  next error hbad hdecode =>
    -- a refusal is a reply too: the stream stays open
    refine ⟨h, rfl, [], (List.append_nil _).symm, ?_⟩
    rw [← hdecode]
    refine .accepted hraw fun cause heq => hbad cause ?_
    rw [hdecode] at heq
    exact Except.error.inj heq

/-- After the wait another attempt to connect does not come too early. -/
theorem awaitReconnect_ensures (hkept : Kept inv) (h : inv transport watch) :
    transport.awaitReconnect.Ensures watched
      (fun _ after => inv transport after ∧ after.traffic = watch.traffic ∧
        transport.tooEarly after.clock = false) watch := by
  unfold awaitReconnect
  split
  next hnone =>
    exact ⟨h, rfl, by simp only [tooEarly, hnone]⟩
  next last hlast =>
    refine Action.ensures_require_bind not_watched_panic fun _ => ?_
    rintro _ after ⟨time, hclock, hsleep, rfl⟩
    refine ⟨hkept.later h hclock rfl, rfl, ?_⟩
    simp only [tooEarly, hlast, decide_eq_false_iff_not]
    refine Nat.not_lt.mpr (Nat.le_sub_of_add_le ?_)
    rw [Nat.add_comm]
    exact hsleep

theorem exchangeFrame_ensures {frame : Bytes} {length : Nat} (hkept : Kept inv)
    (h : inv transport watch) :
    (transport.exchangeFrame frame length).Ensures watched
      (fun outcome after => inv outcome.2 after ∧ outcome.2.settings = transport.settings ∧
        ∃ new, after.traffic = watch.traffic ++ new ∧
          transport.Exchanges watch.clock frame length new outcome.1 outcome.2) watch := by
  unfold exchangeFrame
  refine (attempt_ensures hkept h).bind ?_
  rintro ⟨outcome, first⟩ middle ⟨hheld, hsettings, seen, htraffic, hround⟩
  rcases outcome with error | _ | ⟨byte, rest⟩
  case error =>
    refine ⟨hheld, hsettings, seen, htraffic, ?_⟩
    have hfailed : first.Settles length (.error error) [] (.error error) first := .failed
    simpa using Exchanges.once hround (by simp) hfailed
  case ok.nil =>
    -- the peer has hung up: close, wait until another attempt is due, and go through a second round
    obtain ⟨stream, hstream⟩ := hround.stream_isSome
    refine (disconnect_ensures hkept hheld hstream).bind ?_
    rintro _ closed ⟨rfl, hclosed, hclose, -⟩
    refine (report_ensures _ _ (.refl _)).bind fun _ reported ⟨hreported, hreport⟩ => ?_
    refine (awaitReconnect_ensures hkept (hkept.later hclosed hreport hreported)).bind ?_
    rintro _ waited ⟨hwaited, hwait, hdue⟩
    refine (attempt_ensures hkept hwaited).bind ?_
    rintro ⟨outcome, second⟩ again ⟨hagain, hsettings', seen', htraffic', hround'⟩
    have hseen : again.traffic = watch.traffic ++ (seen ++ .close stream :: seen') := by
      rw [htraffic', hwait, hreported, hclose, htraffic]
      simp
    have hsettings'' : second.settings = transport.settings := hsettings'.trans hsettings
    rcases outcome with error | _ | ⟨byte, rest⟩
    case error =>
      refine ⟨hagain, hsettings'', _, hseen, ?_⟩
      have hfailed : second.Settles length (.error error) [] (.error error) second := .failed
      simpa using Exchanges.again hround hstream hdue hround' hfailed
    case ok.nil =>
      obtain ⟨stream', hstream'⟩ := hround'.stream_isSome
      refine (disconnect_ensures hkept hagain hstream').bind ?_
      rintro _ after ⟨rfl, hafter, hend, -⟩
      refine ⟨hafter, hsettings'', _, ?_, .again hround hstream hdue hround' (.ended hstream')⟩
      rw [hend, hseen]
      simp
    case ok.cons =>
      obtain ⟨stream', hstream'⟩ := hround'.stream_isSome
      refine (acceptReply_ensures hkept hagain hstream' (List.cons_ne_nil _ _)).mono ?_
      rintro ⟨result, transport'⟩ after ⟨hafter, hsame, closing, hend, hsettles⟩
      refine ⟨hafter, hsame.trans hsettings'', _, ?_,
        .again hround hstream hdue hround' hsettles⟩
      rw [hend, hseen]
      simp
  case ok.cons =>
    obtain ⟨stream, hstream⟩ := hround.stream_isSome
    refine (acceptReply_ensures hkept hheld hstream (List.cons_ne_nil _ _)).mono ?_
    rintro ⟨result, transport'⟩ after ⟨hafter, hsame, closing, hend, hsettles⟩
    refine ⟨hafter, hsame.trans hsettings, _, ?_, .once hround (by simp) hsettles⟩
    rw [hend, htraffic, List.append_assoc]

/-- An exchange whose frame can be encoded is an exchange of that frame; the health recorded at the
end is no part of it. -/
theorem exchange_rounds {unit : UnitId} {function : UInt8} {payload frame : Bytes} {length : Nat}
    (hkept : Kept inv) (h : inv transport watch)
    (hencode : Frame.Tcp.encode unit function payload = .ok frame) :
    (transport.exchange unit function payload length).Ensures watched
      (fun outcome after => ∃ transport' seen, outcome.2 = transport'.after outcome.1 ∧
        inv transport' after ∧ transport'.settings = transport.settings ∧
        after.traffic = watch.traffic ++ seen ∧
        transport.Exchanges watch.clock frame length seen outcome.1 transport') watch := by
  unfold exchange
  rw [hencode]
  apply (exchangeFrame_ensures hkept h).bind
  intro outcome after h
  obtain ⟨hafter, hsettings, seen, htraffic, hexchanges⟩ := h
  exact ⟨outcome.2, seen, rfl, hafter, hsettings, htraffic, hexchanges⟩

end ModbusMaster.Tcp.Transport
