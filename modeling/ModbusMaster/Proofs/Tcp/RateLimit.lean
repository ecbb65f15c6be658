import ModbusMaster.Proofs.Tcp.Round

/-!
The limit on attempts to connect, over whole sessions. `Use.Fares` is what a use comes to, as an
onlooker sees it: it is refused when it would need a stream too early, and it waits instead when
the peer has closed the stream in the middle of an exchange. `Session.attempts_limited` puts this
together with the agreement of the transport's record and what was seen.
-/

namespace ModbusMaster.Tcp

variable {transport transport' : Transport} {now : Instant} {frame : Bytes} {length : Nat}
  {seen : List Traffic} {result : Except RequestError Bytes}

/-- Nothing was read. -/
def Traffic.Unread (traffic : List Traffic) : Prop :=
  ∀ stream outcome, read stream outcome ∉ traffic

theorem Traffic.Unread.append {a b : List Traffic} (ha : Unread a) (hb : Unread b) :
    Unread (a ++ b) := by
  intro stream outcome hmem
  rcases List.mem_append.mp hmem with hmem | hmem
  · exact ha stream outcome hmem
  · exact hb stream outcome hmem

/-- What follows when the peer has closed the stream: one more attempt to connect and, if that
succeeds, the frame once more. -/
inductive Retries (frame : Bytes) (result : Except RequestError Bytes) : List Traffic → Prop where
  | failed {start : Instant} {interruption : Interruption}
      (result_eq : result = .error (Transport.connectError interruption)) :
      Retries frame result [.attempt start (.error interruption)]
  | opened {start : Instant} {stream : Handle} {written : Except Interruption Unit}
      {later : List Traffic} (starts_eq : Traffic.starts later = []) :
      Retries frame result (.attempt start (.ok stream) :: .write stream frame written :: later)

/-- How a use fares that begins at `now` and of which `seen` is seen. -/
structure Use.Fares (use : Use) (transport : Transport) (now : Instant) (seen : List Traffic)
    (result : Except RequestError Bytes) (transport' : Transport) : Prop where
  /-- Less than the reconnect interval after the last attempt was started nothing happens. -/
  refused : use.needsConnection → transport.stream = none →
    ∀ last, transport.lastAttempt = some last →
      now < last + transport.settings.reconnectInterval →
      result = .error .noConnection ∧ seen = [] ∧ transport'.stream = none ∧
        transport'.lastAttempt = transport.lastAttempt ∧ transport'.attempts = transport.attempts
  /-- A read that found nothing: the first one did, and the stream was replaced. -/
  retried : ∀ stream, .read stream (.ok []) ∈ seen →
    ∃ first last retry, seen = first ++ .read last (.ok []) :: .close last :: retry ∧
      Traffic.Unread first ∧ result ≠ .error .noConnection ∧
      ∃ unit function payload length frame, use = .exchange unit function payload length ∧
        Frame.Tcp.encode unit function payload = .ok frame ∧ Retries frame result retry

theorem OfMedium.not_refused {error : RequestError} (h : OfMedium error) :
    (.error error : Except RequestError Bytes) ≠ .error .noConnection := by
  cases h <;> nofun

namespace Transport

theorem Connects.refused {outcome : Except RequestError Unit}
    (h : transport.Connects now seen outcome transport') (hnone : transport.stream = none)
    (hearly : transport.tooEarly now) :
    outcome = .error .noConnection ∧ seen = [] ∧ transport' = transport := by
  cases h with
  | held stream_eq => rw [hnone] at stream_eq; cases stream_eq
  | early => exact ⟨rfl, rfl, rfl⟩
  | opened _ due => rw [hearly] at due; cases due
  | failed _ due => rw [hearly] at due; cases due

theorem Connects.unread {outcome : Except RequestError Unit}
    (h : transport.Connects now seen outcome transport') : Traffic.Unread seen := by
  intro stream outcome hmem
  cases h with
  | held => cases hmem
  | early => cases hmem
  | opened => simp at hmem
  | failed => simp at hmem

/-- To have a stream where there was none, one attempt to connect has to succeed. -/
theorem Connects.opened_eq {stream : Handle}
    (h : transport.Connects now seen (.ok ()) transport') (hnone : transport.stream = none)
    (hstream : transport'.stream = some stream) :
    ∃ start, seen = [.attempt start (.ok stream)] := by
  cases h with
  | held stream_eq => rw [hnone] at stream_eq; cases stream_eq
  | opened _ _ stream_eq =>
    rw [hstream] at stream_eq
    cases stream_eq
    exact ⟨_, rfl⟩

theorem Round.refused {outcome : Except RequestError Bytes}
    (h : transport.Round now frame seen outcome transport') (hnone : transport.stream = none)
    (hearly : transport.tooEarly now) :
    outcome = .error .noConnection ∧ seen = [] ∧ transport' = transport := by
  cases h with
  | unconnected connects =>
    obtain ⟨herror, hseen, htransport⟩ := connects.refused hnone hearly
    cases herror
    exact ⟨rfl, hseen, htransport⟩
  | unwritten connects => cases (connects.refused hnone hearly).1
  | unread connects => cases (connects.refused hnone hearly).1
  | answered connects => cases (connects.refused hnone hearly).1

theorem Exchanges.refused (h : transport.Exchanges now frame length seen result transport')
    (hnone : transport.stream = none) (hearly : transport.tooEarly now) :
    result = .error .noConnection ∧ seen = [] ∧ transport' = transport := by
  cases h with
  | once round outcome_ne settles =>
    obtain ⟨rfl, rfl, rfl⟩ := round.refused hnone hearly
    cases settles
    exact ⟨rfl, rfl, rfl⟩
  | again round => cases (round.refused hnone hearly).1

/-- A read finds nothing only as the last thing of a round. -/
theorem Round.hangUp {outcome : Except RequestError Bytes} {stream : Handle}
    (h : transport.Round now frame seen outcome transport')
    (hmem : .read stream (.ok []) ∈ seen) : outcome = .ok [] := by
  cases h with
  | unconnected connects => cases connects.unread _ _ hmem
  | unwritten connects =>
    rcases List.mem_append.mp hmem with hmem | hmem
    · cases connects.unread _ _ hmem
    · simp at hmem
  | unread connects =>
    rcases List.mem_append.mp hmem with hmem | hmem
    · cases connects.unread _ _ hmem
    · simp at hmem
  | answered connects =>
    rcases List.mem_append.mp hmem with hmem | hmem
    · cases connects.unread _ _ hmem
    · simp only [List.mem_cons, reduceCtorEq, Traffic.read.injEq, Except.ok.injEq,
        List.not_mem_nil, or_false, false_or] at hmem
      rw [hmem.2]

/-- A round that has read something read only that, at its end, from the stream it holds. -/
theorem Round.answered_split {raw : Bytes} {stream : Handle}
    (h : transport.Round now frame seen (.ok raw) transport')
    (hstream : transport'.stream = some stream) :
    ∃ first, seen = first ++ [.read stream (.ok raw)] ∧ Traffic.Unread first := by
  cases h with
  | answered connects stream_eq =>
    rw [hstream] at stream_eq
    cases stream_eq
    refine ⟨_, (List.append_assoc _ [Traffic.write stream frame (.ok ())] _).symm, ?_⟩
    intro stream outcome hmem
    rcases List.mem_append.mp hmem with hmem | hmem
    · exact connects.unread _ _ hmem
    · simp at hmem

theorem Settles.starts_eq {outcome : Except RequestError Bytes}
    (h : transport.Settles length outcome seen result transport') : Traffic.starts seen = [] := by
  cases h <;> rfl

/-- A round without a stream, when another attempt is allowed, starts with that attempt. -/
theorem Round.retries {outcome : Except RequestError Bytes} {closing : List Traffic}
    {transport'' : Transport} (h : transport.Round now frame seen outcome transport')
    (hnone : transport.stream = none) (hdue : transport.tooEarly now = false)
    (hsettles : transport'.Settles length outcome closing result transport'') :
    Retries frame result (seen ++ closing) := by
  have hstarts := hsettles.starts_eq
  cases h with
  | unconnected connects =>
    cases hsettles
    cases connects with
    | early _ tooEarly => rw [hdue] at tooEarly; cases tooEarly
    | failed => exact .failed rfl
  | unwritten connects stream_eq =>
    obtain ⟨start, rfl⟩ := connects.opened_eq hnone stream_eq
    exact .opened hstarts
  | unread connects stream_eq =>
    obtain ⟨start, rfl⟩ := connects.opened_eq hnone stream_eq
    exact .opened hstarts
  | answered connects stream_eq =>
    obtain ⟨start, rfl⟩ := connects.opened_eq hnone stream_eq
    exact .opened hstarts

theorem decode_ne (raw : Bytes) : Frame.Tcp.decode raw length ≠ .error .noConnection := by
  unfold Frame.Tcp.decode
  split
  · nofun
  · split
    · split
      · nofun
      · split <;> nofun
    · nofun

/-- When another attempt is allowed, a round is not refused. -/
theorem Round.outcome_ne {outcome : Except RequestError Bytes}
    (h : transport.Round now frame seen outcome transport')
    (hdue : transport.tooEarly now = false) : outcome ≠ .error .noConnection := by
  cases h with
  | unconnected connects =>
    cases connects with
    | early _ tooEarly => rw [hdue] at tooEarly; cases tooEarly
    | failed => exact (ofMedium_connectError _).not_refused
  | unwritten => exact (ofMedium_exchangeError _).not_refused
  | unread => exact (ofMedium_exchangeError _).not_refused
  | answered => nofun

theorem Settles.result_ne {outcome : Except RequestError Bytes}
    (h : transport.Settles length outcome seen result transport')
    (houtcome : outcome ≠ .error .noConnection) : result ≠ .error .noConnection := by
  cases h with
  | failed => exact houtcome
  | ended => nofun
  | accepted => exact decode_ne _
  | rejected => nofun

theorem Settles.unread {outcome : Except RequestError Bytes}
    (h : transport.Settles length outcome seen result transport') : Traffic.Unread seen := by
  intro stream outcome hmem
  cases h with
  | failed => cases hmem
  | ended => simp at hmem
  | accepted => cases hmem
  | rejected => simp at hmem

/-- When a read finds nothing, the first one did, and the exchange went on with a new stream. -/
theorem Exchanges.retried {stream : Handle}
    (h : transport.Exchanges now frame length seen result transport')
    (hmem : .read stream (.ok []) ∈ seen) :
    ∃ first last retry, seen = first ++ .read last (.ok []) :: .close last :: retry ∧
      Traffic.Unread first ∧ result ≠ .error .noConnection ∧ Retries frame result retry := by
  cases h with
  | once round outcome_ne settles =>
    -- an exchange of one round has read something, or nothing at all
    rcases List.mem_append.mp hmem with hmem | hmem
    · exact absurd (round.hangUp hmem) outcome_ne
    · exact absurd hmem (settles.unread _ _)
  | again round stream_eq due round' settles =>
    -- the first round ended with the read that found nothing, and the wait makes the second one due
    rename_i last later
    obtain ⟨first, rfl, hfirst⟩ := round.answered_split stream_eq
    have hretries := round'.retries rfl due settles
    refine ⟨first, last, _, ?_, hfirst, settles.result_ne (round'.outcome_ne due), hretries⟩
    rw [List.append_assoc first, List.append_assoc first]
    rfl

variable {watch : Watch}

theorem Agrees.tooEarly_of_lt {last : Instant} (h : transport.Agrees watch)
    (hlast : transport.lastAttempt = some last)
    (hlt : watch.clock < last + transport.settings.reconnectInterval) :
    transport.tooEarly watch.clock := by
  have hpast := h.past last (List.mem_of_getLast? (h.lastAttempt.symm.trans hlast))
  simp only [tooEarly, hlast, decide_eq_true_eq]
  exact Nat.sub_lt_left_of_lt_add hpast hlt

/-- The health of a transport is not part of what is seen. -/
theorem Agrees.after_result {α : Type} (h : transport.Agrees watch)
    (result : Except RequestError α) : (transport.after result).Agrees watch :=
  ⟨h.connection, h.streams, h.attempts, h.lastAttempt, h.past, h.spaced, h.alone⟩

theorem disconnect_unread (h : transport.Agrees watch) :
    transport.disconnect.Ensures watched
      (fun transport' after => transport'.Agrees after ∧ transport'.settings = transport.settings ∧
        ∃ seen, after.traffic = watch.traffic ++ seen ∧ Traffic.Unread seen) watch := by
  cases hstream : transport.stream with
  | some stream =>
    refine (disconnect_ensures Agrees.kept h hstream).mono ?_
    rintro _ after ⟨rfl, hagrees, htraffic, -⟩
    exact ⟨hagrees, rfl, _, htraffic, by simp [Traffic.Unread]⟩
  | none =>
    unfold disconnect
    rw [hstream]
    refine ⟨⟨rfl, ?_, h.attempts, h.lastAttempt, h.past, h.spaced, h.alone⟩, rfl, [],
      (List.append_nil _).symm, nofun⟩
    rw [h.streams, hstream]

theorem send_ensures {unit : UnitId} {function : UInt8} {payload : Bytes}
    (h : transport.Agrees watch) :
    (transport.send unit function payload).Ensures watched
      (fun outcome after => outcome.2.Agrees after ∧ outcome.2.settings = transport.settings ∧
        ∃ seen, after.traffic = watch.traffic ++ seen ∧ Traffic.Unread seen ∧
          ((∃ frame, Frame.Tcp.encode unit function payload = .ok frame) →
            transport.stream = none → transport.tooEarly watch.clock →
            outcome.1 = .error .noConnection ∧ seen = [] ∧ outcome.2.stream = none ∧
              outcome.2.lastAttempt = transport.lastAttempt ∧
              outcome.2.attempts = transport.attempts)) watch := by
  unfold send
  split
  next cause hencode =>
    refine ⟨h.after_result _, rfl, [], (List.append_nil _).symm, nofun, ?_⟩
    rintro ⟨frame, hframe⟩
    rw [hencode] at hframe
    cases hframe
  next frame hencode =>
    refine (connect_ensures Agrees.kept h).bind ?_
    rintro ⟨connection, connected⟩ first ⟨hagrees, hsettings, seen, htraffic, hconnects⟩
    cases connection with
    | error error =>
      refine ⟨hagrees.after_result _, hsettings, seen, htraffic, hconnects.unread,
        fun _ hnone hearly => ?_⟩
      obtain ⟨herror, rfl, rfl⟩ := hconnects.refused hnone hearly
      cases herror
      exact ⟨rfl, rfl, hnone, rfl, rfl⟩
    | ok _ =>
      obtain ⟨stream, hstream⟩ := hconnects.stream_isSome
      refine (writeFrame_ensures Agrees.kept hagrees hstream).bind ?_
      rintro ⟨result, transport'⟩ after ⟨hafter, -, hwritten⟩
      have hseen : ∃ written, after.traffic = first.traffic ++ written ∧
          Traffic.Unread written ∧ transport'.settings = connected.settings := by
        rcases hwritten with ⟨heq, hwrite⟩ | ⟨interruption, heq, hwrite⟩
        · cases heq
          exact ⟨_, hwrite, by simp [Traffic.Unread], rfl⟩
        · cases heq
          exact ⟨_, hwrite, by simp [Traffic.Unread], rfl⟩
      obtain ⟨written, hwrite, hunread, hkept⟩ := hseen
      refine ⟨hafter.after_result _, hkept.trans hsettings, seen ++ written, ?_, ?_,
        fun _ hnone hearly => ?_⟩
      · rw [hwrite, htraffic, List.append_assoc]
      · exact hconnects.unread.append hunread
      · -- it has connected, so it did not come too early
        cases (hconnects.refused hnone hearly).1

theorem exchange_ensures {unit : UnitId} {function : UInt8} {payload : Bytes} {length : Nat}
    (h : transport.Agrees watch) :
    (transport.exchange unit function payload length).Ensures watched
      (fun outcome after => outcome.2.Agrees after ∧ outcome.2.settings = transport.settings ∧
        ∃ seen, after.traffic = watch.traffic ++ seen ∧
          (Use.exchange unit function payload length).Fares transport watch.clock seen outcome.1
            outcome.2) watch := by
  unfold exchange
  split
  next cause hencode =>
    refine ⟨h.after_result _, rfl, [], (List.append_nil _).symm, ?_, nofun⟩
    simp [Use.needsConnection, hencode]
  next frame hencode =>
    refine (exchangeFrame_ensures Agrees.kept h).bind ?_
    rintro ⟨result, transport'⟩ after ⟨hagrees, hsettings, seen, htraffic, hexchanges⟩
    refine ⟨hagrees.after_result _, hsettings, seen, htraffic, ?_, ?_⟩
    · intro _ hnone last hlast hlt
      obtain ⟨rfl, rfl, rfl⟩ := hexchanges.refused hnone (h.tooEarly_of_lt hlast hlt)
      exact ⟨rfl, rfl, hnone, rfl, rfl⟩
    · intro stream hmem
      obtain ⟨first, last, retry, hsplit, hunread, hne, hretries⟩ := hexchanges.retried hmem
      exact ⟨first, last, retry, hsplit, hunread, hne,
        unit, function, payload, length, frame, rfl, hencode, hretries⟩

end Transport

/-- However a transport is used, its record keeps agreeing with what is seen, and the use fares as
it should. -/
theorem Use.on_ensures (use : Use) {watch : Watch} (h : transport.Agrees watch) :
    (use.on transport).Ensures watched
      (fun outcome after => outcome.2.Agrees after ∧ outcome.2.settings = transport.settings ∧
        ∃ seen, after.traffic = watch.traffic ++ seen ∧
          use.Fares transport watch.clock seen outcome.1 outcome.2) watch := by
  cases use with
  | connect =>
    refine (Transport.connect_ensures Transport.Agrees.kept h).bind ?_
    rintro ⟨outcome, transport'⟩ after ⟨hagrees, hsettings, seen, htraffic, hconnects⟩
    refine ⟨hagrees, hsettings, seen, htraffic, ?_, ?_⟩
    · intro _ hnone last hlast hlt
      obtain ⟨rfl, rfl, rfl⟩ := hconnects.refused hnone (h.tooEarly_of_lt hlast hlt)
      exact ⟨rfl, rfl, hnone, rfl, rfl⟩
    · exact fun stream hmem => absurd hmem (hconnects.unread _ _)
  | disconnect =>
    refine (Transport.disconnect_unread h).bind ?_
    rintro transport' after ⟨hagrees, hsettings, seen, htraffic, hunread⟩
    exact ⟨hagrees, hsettings, seen, htraffic, nofun, fun _ hmem => absurd hmem (hunread _ _)⟩
  | send unit function payload =>
    refine (Transport.send_ensures h).bind ?_
    rintro ⟨outcome, transport'⟩ after ⟨hagrees, hsettings, seen, htraffic, hunread, hrefused⟩
    refine ⟨hagrees, hsettings, seen, htraffic, ?_, fun _ hmem => absurd hmem (hunread _ _)⟩
    intro hneeds hnone last hlast hlt
    have hframe : ∃ frame, Frame.Tcp.encode unit function payload = .ok frame := by
      cases hencode : Frame.Tcp.encode unit function payload with
      | ok frame => exact ⟨frame, rfl⟩
      | error cause => simp [Use.needsConnection, hencode] at hneeds
    obtain ⟨rfl, hrest⟩ := hrefused hframe hnone (h.tooEarly_of_lt hlast hlt)
    exact ⟨rfl, hrest⟩
  | exchange unit function payload length => exact Transport.exchange_ensures h

/-- The transport of `Transport.of` agrees with an onlooker who has seen nothing yet. -/
theorem Transport.of_agrees {resolve : String → Option Host} {settings : Settings} {watch : Watch}
    (hof : Transport.of resolve settings = .ok transport) (hwatch : watch.traffic = []) :
    transport.Agrees watch ∧
      transport.settings.reconnectInterval = settings.reconnectInterval := by
  obtain ⟨host, hsettings⟩ := Transport.of_eq_ok hof
  rw [hsettings]
  constructor
  · constructor <;> simp [hwatch, Traffic.openStreams, Traffic.starts, Traffic.AttemptsAlone]
  · dsimp only
    split <;> rfl

/-- The transport keeps its record, the start times of its attempts are at least the reconnect
interval apart, and every use fares as it should, whatever happened before and whatever the network
and the peer do. -/
theorem Session.attempts_limited {resolve : String → Option Host} {settings : Settings}
    {watch watch' : Watch} (hof : Transport.of resolve settings = .ok transport)
    (hwatch : watch.traffic = [])
    (hsession : Session (fun _ => watched) Watch.Waits transport watch transport' watch') :
    transport'.Agrees watch' ∧
      transport'.settings.reconnectInterval = settings.reconnectInterval ∧
      ∀ (use : Use) history result after watch'', (use.on transport').Runs history (result, after) →
        watched.Allows watch' history watch'' →
        ∃ seen, watch''.traffic = watch'.traffic ++ seen ∧
          use.Fares transport' watch'.clock seen result after := by
  have hinv : transport'.Agrees watch' ∧
      transport'.settings.reconnectInterval = settings.reconnectInterval := by
    refine Session.invariant (fun transport watch => transport.Agrees watch ∧
      transport.settings.reconnectInterval = settings.reconnectInterval) hsession
      (Transport.of_agrees hof hwatch) ?_ ?_
    · rintro transport watch after ⟨hagrees, hsettings⟩ ⟨hclock, heq⟩
      have htraffic : after.traffic = watch.traffic := by rw [heq]
      exact ⟨hagrees.later hclock htraffic, hsettings⟩
    · rintro use transport watch ⟨hagrees, hsettings⟩
      refine (use.on_ensures hagrees).mono ?_
      rintro outcome after ⟨hafter, hkept, -⟩
      exact ⟨hafter, (congrArg Settings.reconnectInterval hkept).trans hsettings⟩
  refine ⟨hinv.1, hinv.2, fun use history result after watch'' hruns hallows => ?_⟩
  exact (Action.ensures_iff.mp (use.on_ensures hinv.1) _ _ _ hruns hallows).2.2

/-- An attempt was started at 3 and failed: at 5 another connect is refused. -/
theorem Session.attempts_limited_at_five :
    let transport : Transport :=
      { settings := { host := "plc", port := 502 }, host := .v4 [10, 0, 0, 7] }
    let failed : Transport := { transport with lastAttempt := some 3, attempts := 1 }
    let watch : Watch := ⟨5, 3, [.attempt 3 (.error .elapsed)]⟩
    failed.Agrees watch ∧
      ∀ history result after watch', (Use.connect.on failed).Runs history (result, after) →
        watched.Allows watch history watch' →
        result = .error .noConnection ∧ watch'.traffic = watch.traffic ∧ after.attempts = 1 := by
  intro transport failed watch
  have hof : Transport.of (fun _ => some transport.host) transport.settings = .ok transport := rfl
  have hsession : Session (fun _ => watched) Watch.Waits transport ⟨0, 0, []⟩ failed watch := by
    have hruns : (Use.connect.on transport).Runs
        [⟨.now, (0 : Nat)⟩, ⟨.now, (3 : Nat)⟩,
          ⟨.connect transport.settings transport.host, .error .elapsed⟩,
          ⟨.report (.notConnected transport.address (.io .timedOut)), ()⟩]
        (.error (.io .timedOut), failed) :=
      .ask (.ask (.ask (.ask (.done _))))
    refine .use .start hruns ?_
    refine .cons ⟨3, by decide, rfl, rfl⟩ ?_
    refine .cons ⟨3, by decide, rfl, rfl⟩ ?_
    refine .cons ⟨4, by decide, trivial, rfl⟩ ?_
    exact .cons ⟨5, by decide, trivial, rfl⟩ (.nil _)
  obtain ⟨hagrees, -, huse⟩ := Session.attempts_limited hof rfl hsession
  refine ⟨hagrees, fun history result after watch' hruns hallows => ?_⟩
  obtain ⟨seen, htraffic, hfares⟩ := huse .connect history result after watch' hruns hallows
  obtain ⟨hresult, rfl, -, -, hattempts⟩ := hfares.refused rfl rfl 3 rfl (by decide)
  exact ⟨hresult, htraffic.trans (List.append_nil _), hattempts⟩

end ModbusMaster.Tcp
