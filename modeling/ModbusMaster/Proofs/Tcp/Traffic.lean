import ModbusMaster.Proofs.Tcp.Session

/-!
What an onlooker with a clock sees of a TCP transport: when it starts to connect, what it writes,
what its reads return and when it closes a stream. `Transport.Kept` lists what a property of the
transport and the onlooker has to survive to last; `Transport.Agrees`, which says that the
transport's own record is what was seen, is such a property.
-/

namespace ModbusMaster.Tcp

/-- One thing that is seen of a transport. -/
inductive Traffic where
  /-- An attempt to connect, for which the clock was read last at `start`. -/
  | attempt (start : Instant) (outcome : Except Interruption Handle)
  | write (stream : Handle) (frame : Bytes) (outcome : Except Interruption Unit)
  | read (stream : Handle) (outcome : Except Interruption Bytes)
  | close (stream : Handle)

namespace Traffic

/-- When an attempt to connect was started. -/
def start? : Traffic → Option Instant
  | attempt start _ => some start
  | _ => none

/-- The streams that are open after one more thing was seen. -/
def after (streams : List Handle) : Traffic → List Handle
  | attempt _ (.ok stream) => stream :: streams
  | close stream => streams.erase stream
  | _ => streams

/-- When the attempts to connect were started. -/
def starts (traffic : List Traffic) : List Instant :=
  traffic.filterMap start?

/-- The streams that are open at the end. -/
def openStreams (traffic : List Traffic) : List Handle :=
  traffic.foldl after []

/-- Whenever an attempt to connect was started, no stream was open. -/
def AttemptsAlone (traffic : List Traffic) : Prop :=
  ∀ before start outcome later, traffic = before ++ attempt start outcome :: later →
    openStreams before = []

@[simp] theorem starts_append (a b : List Traffic) : starts (a ++ b) = starts a ++ starts b :=
  List.filterMap_append

@[simp] theorem openStreams_append_singleton (traffic : List Traffic) (item : Traffic) :
    openStreams (traffic ++ [item]) = after (openStreams traffic) item := by
  simp [openStreams]

theorem AttemptsAlone.append_singleton {traffic : List Traffic} {item : Traffic}
    (h : AttemptsAlone traffic) (hitem : ∀ start, item.start? = some start →
      openStreams traffic = []) : AttemptsAlone (traffic ++ [item]) := by
  intro before start outcome later hsplit
  -- the split is at the new item, or before it
  rcases later.eq_nil_or_concat with rfl | ⟨later, last, rfl⟩
  · obtain ⟨rfl, hlast⟩ := List.append_inj' hsplit rfl
    cases hlast
    exact hitem start rfl
  · have hconcat : traffic ++ [item] = (before ++ attempt start outcome :: later) ++ [last] := by
      rw [hsplit]
      simp
    obtain ⟨htraffic, _⟩ := List.append_inj' hconcat rfl
    exact h before start outcome later htraffic

end Traffic

/-- What an onlooker has seen so far. -/
structure Watch where
  clock : Instant
  /-- What the clock showed when the transport read it last. -/
  reading : Instant
  traffic : List Traffic

namespace Watch

/-- The traffic with what a call and its answer add to it. -/
def trafficAfter (watch : Watch) : Action.Step → List Traffic
  | ⟨.connect _ _, outcome⟩ => watch.traffic ++ [.attempt watch.reading outcome]
  | ⟨.transmit stream frame _, outcome⟩ => watch.traffic ++ [.write stream frame outcome]
  | ⟨.receive stream _ _, outcome⟩ => watch.traffic ++ [.read stream outcome]
  | ⟨.close stream, _⟩ => watch.traffic ++ [.close stream]
  | _ => watch.traffic

/-- What a call shows of the clock, and how long it takes: the clock tells the time at which it is
read, and a sleep does not end early. A panic never ends. -/
def keepsTime (watch : Watch) (time : Instant) : Action.Step → Prop
  | ⟨.now, answer⟩ => answer = watch.clock
  | ⟨.sleepUntil instant, _⟩ => instant ≤ time
  | ⟨.panic _, _⟩ => False
  | _ => True

/-- The onlooker when a call has been answered. -/
def after (watch : Watch) (time : Instant) (step : Action.Step) : Watch where
  clock := time
  reading := match step with
    | ⟨.now, _⟩ => watch.clock
    | _ => watch.reading
  traffic := watch.trafficAfter step

/-- Nothing was seen since, though it may be later. -/
def Passed (watch after : Watch) : Prop :=
  after.traffic = watch.traffic ∧ watch.clock ≤ after.clock

theorem Passed.refl (watch : Watch) : watch.Passed watch :=
  ⟨rfl, Nat.le_refl _⟩

/-- The onlooker when time has passed. -/
def Waits (watch after : Watch) : Prop :=
  watch.clock ≤ after.clock ∧ after = { watch with clock := after.clock }

end Watch

/-- Network and peer behave in any way at all, and any time passes with every call; only the clock
does not go back. -/
def watched : Environment Watch := fun watch step after =>
  ∃ time, watch.clock ≤ time ∧ watch.keepsTime time step ∧ after = watch.after time step

theorem not_watched_panic {watch : Watch} {cause : Panic} (answer : Unit) (after : Watch) :
    ¬ watched watch ⟨.panic cause, answer⟩ after :=
  fun ⟨_, _, hfalse, _⟩ => hfalse

/-- A property that every single thing that is seen keeps: waiting, a write or a read, closing the
stream that is held, and an attempt to connect when there is none and the interval is over. -/
structure Transport.Kept (inv : Transport → Watch → Prop) : Prop where
  later : ∀ {transport watch after}, inv transport watch → watch.clock ≤ after.clock →
    after.traffic = watch.traffic → inv transport after
  seen : ∀ {transport watch after}, inv transport watch → watch.clock ≤ after.clock →
    ∀ {item : Traffic}, after.traffic = watch.traffic ++ [item] → item.start? = none →
      (∀ streams, Traffic.after streams item = streams) → inv transport after
  closed : ∀ {transport watch after}, inv transport watch → watch.clock ≤ after.clock →
    ∀ {stream}, transport.stream = some stream →
      after.traffic = watch.traffic ++ [.close stream] →
      inv { transport with stream := none, connection := .disconnected } after
  attempted : ∀ {transport transport' watch after}, inv transport watch →
    watch.clock ≤ after.clock → transport.stream = none →
    transport.tooEarly watch.clock = false →
    ∀ {start : Instant} {outcome : Except Interruption Handle}, watch.clock ≤ start →
      start ≤ after.clock → after.traffic = watch.traffic ++ [.attempt start outcome] →
      transport' = { transport with
        lastAttempt := some start
        attempts := transport.attempts + 1
        stream := outcome.toOption
        connection := if outcome.isOk then .connected else .disconnected } →
      inv transport' after

/-- The transport's own record agrees with what was seen. -/
structure Transport.Agrees (transport : Transport) (watch : Watch) : Prop where
  connection : transport.connection =
    if transport.stream.isSome then .connected else .disconnected
  streams : Traffic.openStreams watch.traffic = transport.stream.toList
  attempts : transport.attempts = (Traffic.starts watch.traffic).length
  lastAttempt : transport.lastAttempt = (Traffic.starts watch.traffic).getLast?
  past : ∀ start ∈ Traffic.starts watch.traffic, start ≤ watch.clock
  spaced : (Traffic.starts watch.traffic).Pairwise fun earlier later =>
    earlier + transport.settings.reconnectInterval ≤ later
  alone : Traffic.AttemptsAlone watch.traffic

namespace Transport

variable {transport transport' : Transport} {watch after : Watch}

/-- Times that are an interval apart stay so when one is added that is an interval after the
last. -/
theorem pairwise_append_of_last {interval next : Nat} {times : List Nat}
    (h : times.Pairwise fun a b => a + interval ≤ b)
    (hlast : ∀ last, times.getLast? = some last → last + interval ≤ next) :
    (times ++ [next]).Pairwise fun a b => a + interval ≤ b := by
  refine List.pairwise_append.mpr ⟨h, List.pairwise_singleton _ _, fun time hmem b hb => ?_⟩
  rw [List.mem_singleton.mp hb]
  -- an earlier time is the last one or an interval before it
  rcases times.eq_nil_or_concat with rfl | ⟨initial, last, rfl⟩
  · cases hmem
  · rw [List.concat_eq_append] at h hmem hlast
    have hnext : last + interval ≤ next := hlast last (by simp)
    rcases List.mem_append.mp hmem with hinitial | hmem
    · have htime := (List.pairwise_append.mp h).2.2 time hinitial last (List.mem_singleton_self _)
      omega
    · rw [List.mem_singleton.mp hmem]
      exact hnext

/-- Nothing but time has passed. -/
theorem Agrees.later (h : transport.Agrees watch) (hclock : watch.clock ≤ after.clock)
    (htraffic : after.traffic = watch.traffic) : transport.Agrees after where
  connection := h.connection
  streams := htraffic ▸ h.streams
  attempts := htraffic ▸ h.attempts
  lastAttempt := htraffic ▸ h.lastAttempt
  past := fun start hmem => Nat.le_trans (h.past start (htraffic ▸ hmem)) hclock
  spaced := htraffic ▸ h.spaced
  alone := htraffic ▸ h.alone

/-- Something was seen that neither opens nor closes a stream. -/
theorem Agrees.seen (h : transport.Agrees watch) (hclock : watch.clock ≤ after.clock)
    {item : Traffic} (htraffic : after.traffic = watch.traffic ++ [item])
    (hstart : item.start? = none) (hstreams : ∀ streams, Traffic.after streams item = streams) :
    transport.Agrees after := by
  have hstarts : Traffic.starts after.traffic = Traffic.starts watch.traffic := by
    rw [htraffic, Traffic.starts_append, Traffic.starts, Traffic.starts,
      List.filterMap_cons_none hstart, List.filterMap_nil, List.append_nil]
  exact {
    connection := h.connection
    streams := by rw [htraffic, Traffic.openStreams_append_singleton, hstreams, h.streams]
    attempts := by rw [hstarts, h.attempts]
    lastAttempt := by rw [hstarts, h.lastAttempt]
    past := fun start hmem => Nat.le_trans (h.past start (hstarts ▸ hmem)) hclock
    spaced := by rw [hstarts]; exact h.spaced
    alone := by
      rw [htraffic]
      exact h.alone.append_singleton fun start hsome => by rw [hstart] at hsome; cases hsome }

/-- The open stream was closed. -/
theorem Agrees.closed (h : transport.Agrees watch) (hclock : watch.clock ≤ after.clock)
    {stream : Handle} (hstream : transport.stream = some stream)
    (htraffic : after.traffic = watch.traffic ++ [.close stream]) :
    Agrees { transport with stream := none, connection := .disconnected } after := by
  have hstarts : Traffic.starts after.traffic = Traffic.starts watch.traffic := by
    rw [htraffic, Traffic.starts_append]
    exact List.append_nil _
  exact {
    connection := rfl
    streams := by
      rw [htraffic, Traffic.openStreams_append_singleton, h.streams, hstream]
      simp [Traffic.after]
    attempts := by rw [hstarts, h.attempts]
    lastAttempt := by rw [hstarts, h.lastAttempt]
    past := fun start hmem => Nat.le_trans (h.past start (hstarts ▸ hmem)) hclock
    spaced := by rw [hstarts]; exact h.spaced
    alone := by
      rw [htraffic]
      exact h.alone.append_singleton fun start hsome => by cases hsome }

/-- When the reconnect interval is over, the last attempt was started that long ago. -/
theorem le_of_not_tooEarly {now last : Instant} (h : transport.tooEarly now = false)
    (hlast : transport.lastAttempt = some last) (hpast : last ≤ now) :
    last + transport.settings.reconnectInterval ≤ now := by
  simp only [tooEarly, hlast, decide_eq_false_iff_not] at h
  rw [Nat.add_comm]
  exact Nat.add_le_of_le_sub hpast (Nat.le_of_not_lt h)

/-- An attempt to connect was made, after the interval and without an open stream. -/
theorem Agrees.attempted (h : transport.Agrees watch) (hclock : watch.clock ≤ after.clock)
    (hnone : transport.stream = none) (hdue : transport.tooEarly watch.clock = false)
    {start : Instant} {outcome : Except Interruption Handle} (hstart : watch.clock ≤ start)
    (hend : start ≤ after.clock)
    (htraffic : after.traffic = watch.traffic ++ [.attempt start outcome])
    (hafter : transport' = { transport with
      lastAttempt := some start
      attempts := transport.attempts + 1
      stream := outcome.toOption
      connection := if outcome.isOk then .connected else .disconnected }) :
    transport'.Agrees after := by
  subst hafter
  have hstarts : Traffic.starts after.traffic = Traffic.starts watch.traffic ++ [start] := by
    rw [htraffic, Traffic.starts_append]
    rfl
  -- no stream is held, so by the agreement none was seen to be open
  have hopen : Traffic.openStreams watch.traffic = [] := by rw [h.streams, hnone]; rfl
  exact {
    connection := by cases outcome <;> rfl
    streams := by
      rw [htraffic, Traffic.openStreams_append_singleton, hopen]
      cases outcome <;> rfl
    attempts := by rw [hstarts, h.attempts, List.length_append, List.length_singleton]
    lastAttempt := by rw [hstarts, List.getLast?_concat]
    past := by
      intro time hmem
      rw [hstarts, List.mem_append, List.mem_singleton] at hmem
      rcases hmem with hmem | rfl
      · exact Nat.le_trans (h.past time hmem) hclock
      · exact hend
    spaced := by
      rw [hstarts]
      refine pairwise_append_of_last h.spaced fun last hlast => ?_
      have hpast := h.past last (List.mem_of_getLast? hlast)
      have hover := le_of_not_tooEarly hdue (h.lastAttempt.trans hlast) hpast
      exact Nat.le_trans hover hstart
    alone := by
      rw [htraffic]
      exact h.alone.append_singleton fun _ _ => hopen }

theorem Agrees.kept : Kept Agrees where
  later := Agrees.later
  seen := fun h hclock _ => h.seen hclock
  closed := fun h hclock _ => h.closed hclock
  attempted := fun h hclock hnone hdue _ _ => h.attempted hclock hnone hdue

end Transport

end ModbusMaster.Tcp
