import ModbusMaster.Proofs.Tcp.Network

/-!
Replies are matched with requests by keeping streams clean: whenever a use is over and the stream
is still open, nothing is outstanding on it (`Rests`). What an exchange reads and takes for an
answer is therefore the whole reply to the request it wrote last (`Session.replies_correlated`).
-/

namespace ModbusMaster.Tcp

/-- Whether a result is one that a reply can give. -/
def Answered : Except RequestError Bytes → Prop
  | .ok _ => True
  | .error (.exception _) => True
  | .error _ => False

theorem OfMedium.not_answered {error : RequestError} (h : OfMedium error) :
    ¬ Answered (.error error) := by
  cases h <;> exact id

/-- Of a whole reply only the whole is taken for an answer. -/
theorem IsReply.whole {length : Nat} {raw rest : Bytes} (h : IsReply length (raw ++ rest))
    (hanswered : Answered (Frame.Tcp.decode raw length)) : rest = [] := by
  -- what decodes has nine bytes at least, so its function echo is the one of the whole reply
  unfold Frame.Tcp.decode at hanswered
  split at hanswered
  next => exact hanswered.elim
  next hlong =>
    have hnine : 9 ≤ raw.length := Nat.not_lt.mp hlong
    split at hanswered
    next echo code _ hdrop =>
      have hecho : (raw ++ rest)[7]? = some echo := by
        rw [List.getElem?_append_left (by omega), ← Nat.add_zero 7, ← List.getElem?_drop]
        exact congrArg (·[0]?) hdrop
      -- an echo without the mark makes the whole length be asked for, a refusal has only nine bytes
      have hrest : (raw ++ rest).length ≤ raw.length := by
        rcases h with ⟨echo', heq, hlow, hlength⟩ | ⟨echo', heq, -, hlength⟩
        · rw [hecho] at heq
          cases heq
          have hkept : refuses echo = false := by simpa [refuses, UInt8.lt_iff_toNat_lt] using hlow
          rw [hkept] at hanswered
          split at hanswered
          next hfalse => cases hfalse
          next =>
            split at hanswered
            next => exact hanswered.elim
            next hfull => exact Nat.le_trans (Nat.le_of_eq hlength) (Nat.not_lt.mp hfull)
        · exact Nat.le_trans (Nat.le_of_eq hlength) hnine
      rw [List.length_append] at hrest
      exact List.eq_nil_of_length_eq_zero (by omega)
    next => exact hanswered.elim

/-- What is no answer is no frame either. -/
theorem answered_or_badFrame (raw : Bytes) (length : Nat) :
    Answered (Frame.Tcp.decode raw length) ∨
      ∃ cause, Frame.Tcp.decode raw length = .error (.badFrame cause) := by
  unfold Frame.Tcp.decode
  split
  next => exact .inr ⟨_, rfl⟩
  next =>
    split
    next =>
      split
      next => exact .inl trivial
      next =>
        split
        next => exact .inr ⟨_, rfl⟩
        next => exact .inl trivial
    next => exact .inr ⟨_, rfl⟩

namespace Network

variable {network after : Network} {transport : Transport} {stream : Handle} {frame : Bytes}
  {number length : Nat} {taken : Bytes} {expected : Option Nat} {requests : List Written}
  {reads : List (List ReplyByte)}

/-- Between uses: the frames that were written and the reads, and nothing outstanding on the stream
that is held. -/
structure Rests (transport : Transport) (requests : List Written) (reads : List (List ReplyByte))
    (network : Network) : Prop where
  fresh : network.Fresh
  held : ∀ stream, transport.stream = some stream →
    stream ∈ network.streams ∧ network.Quiet stream
  requests_eq : network.requests = requests
  reads_eq : network.reads = reads

/-- Between a request and its reply, of which `taken` was read. -/
structure Pending (stream : Handle) (number length : Nat) (taken : Bytes)
    (requests : List Written) (reads : List (List ReplyByte)) (network : Network) : Prop where
  fresh : network.Fresh
  opened : stream ∈ network.streams
  awaits : network.Awaits stream number length taken
  requests_eq : network.requests = requests
  reads_eq : network.reads = reads

/-- What the peer and the network cannot change by themselves. -/
def Stable (keeps : Network → Prop) : Prop :=
  ∀ network after, Moves network after → keeps network → keeps after

theorem rests_stable : Stable (Rests transport requests reads) := by
  intro network after move h
  obtain ⟨hstreams, hrequests, hreads, -⟩ := move.kept
  refine ⟨move.fresh h.fresh, fun stream hstream => ?_, hrequests.trans h.requests_eq,
    hreads.trans h.reads_eq⟩
  obtain ⟨hopened, hquiet⟩ := h.held stream hstream
  exact ⟨hstreams ▸ hopened, move.quiet hquiet⟩

theorem pending_stable : Stable (Pending stream number length taken requests reads) := by
  intro network after move h
  obtain ⟨hstreams, hrequests, hreads, -⟩ := move.kept
  exact ⟨move.fresh h.fresh, hstreams ▸ h.opened, move.awaits h.awaits,
    hrequests.trans h.requests_eq, hreads.trans h.reads_eq⟩

theorem Stable.and {keeps keeps' : Network → Prop} (h : Stable keeps) (h' : Stable keeps') :
    Stable fun network => keeps network ∧ keeps' network :=
  fun network after move hkeeps => ⟨h network after move hkeeps.1, h' network after move hkeeps.2⟩

theorem mem_replies_stable {reply : Bytes} :
    Stable fun network => (number, reply) ∈ network.replies :=
  fun _ _ move hmem => move.kept.2.2.2 _ hmem

/-- Without a stream in hand nothing can be outstanding on it. -/
theorem Pending.dropped (h : Pending stream number length taken requests reads network) :
    Rests transport.dropped requests reads network :=
  ⟨h.fresh, nofun, h.requests_eq, h.reads_eq⟩

/-- Only the stream of a transport matters. -/
theorem Rests.of_stream {transport' : Transport} (h : Rests transport requests reads network)
    (hstream : transport'.stream = transport.stream) : Rests transport' requests reads network :=
  ⟨h.fresh, hstream ▸ h.held, h.requests_eq, h.reads_eq⟩

theorem Rests.dropped (h : Rests transport requests reads network) :
    Rests transport.dropped requests reads network :=
  ⟨h.fresh, nofun, h.requests_eq, h.reads_eq⟩

/-! ### Calls -/

/-- A call that the network does not notice. -/
theorem perform_ensures {call : Call} {keeps : Network → Prop} (hstable : Stable keeps)
    (hcall : ∀ network answer after, Answers expected network ⟨call, answer⟩ after →
      after = network) (h : keeps network) :
    (Action.perform call).Ensures (environment expected) (fun _ after => keeps after) network := by
  rintro answer after ⟨middle, hpasses, hanswers⟩
  rw [hcall middle answer after hanswers]
  exact hpasses.lasts hstable h

theorem Stable.report {keeps : Network → Prop} (hstable : Stable keeps) (event : Event)
    (network : Network) (h : keeps network) :
    (Action.report event).Ensures (environment expected) (fun _ after => keeps after) network := by
  refine perform_ensures hstable ?_ h
  exact fun _ _ _ hanswers => hanswers

theorem disconnect_ensures {keeps : Network → Prop} (hstable : Stable keeps)
    (hstream : transport.stream = some stream) (h : keeps network) :
    transport.disconnect.Ensures (environment expected)
      (fun transport' after => transport' = transport.dropped ∧ keeps after) network := by
  unfold Transport.disconnect
  rw [hstream]
  refine Action.Ensures.bind (perform_ensures hstable (fun _ _ _ hanswers => hanswers) h) ?_
  intro _ closed h
  exact (hstable.report _ _ h).bind fun _ after h => ⟨rfl, h⟩

/-- A stream of its own starts quiet. -/
theorem Rests.connected (h : Rests transport requests reads network)
    (hunused : stream ∉ network.streams) :
    Rests { transport with stream := some stream } requests reads
      { network with streams := stream :: network.streams } where
  fresh other hother := by
    obtain ⟨hquiet, hrequests⟩ := h.fresh other fun hmem => hother (List.mem_cons_of_mem _ hmem)
    exact ⟨⟨hquiet.arrived, hquiet.underWay, hquiet.replied⟩, hrequests⟩
  held other heq := by
    cases heq
    obtain ⟨hquiet, -⟩ := h.fresh stream hunused
    exact ⟨List.mem_cons_self, hquiet.arrived, hquiet.underWay, hquiet.replied⟩
  requests_eq := h.requests_eq
  reads_eq := h.reads_eq

theorem connect_ensures (h : Rests transport requests reads network) :
    transport.connect.Ensures (environment expected)
      (fun outcome after => Rests outcome.2 requests reads after ∧
        (outcome.1 = .ok () ∧ (∃ stream, outcome.2.stream = some stream) ∨
          ∃ error, outcome.1 = .error error ∧ ¬ Answered (.error error))) network := by
  unfold Transport.connect
  split
  next stream hstream => exact ⟨h, .inl ⟨rfl, stream, hstream⟩⟩
  next hstream =>
    refine Action.Ensures.bind (perform_ensures rests_stable (fun _ _ _ hanswers => hanswers) h) ?_
    intro now first h
    split
    next =>
      refine (rests_stable.report _ _ h).bind fun _ after h => ?_
      exact ⟨h, .inr ⟨_, rfl, id⟩⟩
    next =>
      refine Action.Ensures.bind
        (perform_ensures rests_stable (fun _ _ _ hanswers => hanswers) h) ?_
      intro start second h
      refine Action.ensures_perform_bind.mpr ?_
      rintro outcome third ⟨middle, hpasses, hanswers⟩
      have hmiddle := hpasses.lasts rests_stable h
      cases outcome with
      | ok stream =>
        obtain ⟨hunused, rfl⟩ := hanswers
        have hconnected := hmiddle.connected hunused
        refine (rests_stable.report _ _ hconnected).bind fun _ after h => ?_
        exact ⟨h.of_stream rfl, .inl ⟨rfl, stream, rfl⟩⟩
      | error interruption =>
        obtain rfl := hanswers
        refine (rests_stable.report _ _ hmiddle).bind fun _ after h => ?_
        have hmedium := Transport.ofMedium_connectError interruption
        exact ⟨h.of_stream rfl, .inr ⟨_, rfl, hmedium.not_answered⟩⟩

/-- A frame that reached the peer on an open stream. -/
theorem Fresh.written (h : network.Fresh) (hopened : stream ∈ network.streams) :
    Fresh { network with requests := network.requests ++ [⟨stream, frame, expected⟩] } := by
  intro other hother
  obtain ⟨hquiet, hrequests⟩ := h other hother
  have hne : ∀ request ∈ network.requests ++ [⟨stream, frame, expected⟩],
      request.stream ≠ other := by
    intro request hmem
    rcases List.mem_append.mp hmem with hmem | hmem
    · exact hrequests request hmem
    · rw [List.mem_singleton.mp hmem]
      rintro rfl
      exact hother hopened
  refine ⟨⟨hquiet.arrived, hquiet.underWay, fun number frame expected hrequest => ?_⟩, hne⟩
  exact absurd rfl (hne _ (List.mem_of_getElem? hrequest))

theorem eq_or_of_getElem?_append {items : List Written} {last item : Written} {i : Nat}
    (h : (items ++ [last])[i]? = some item) :
    items[i]? = some item ∨ i = items.length ∧ item = last := by
  rcases Nat.lt_or_ge i items.length with hlt | hge
  · exact .inl ((List.getElem?_append_left hlt).symm.trans h)
  · rw [List.getElem?_append_right hge, List.getElem?_singleton] at h
    split at h
    next hzero =>
      cases h
      exact .inr ⟨by omega, rfl⟩
    next => cases h

/-- A frame that asks for no reply leaves the stream quiet. -/
theorem Rests.sent (h : Rests transport requests reads network)
    (hstream : transport.stream = some stream) :
    Rests transport (requests ++ [⟨stream, frame, none⟩]) reads
      { network with requests := network.requests ++ [⟨stream, frame, none⟩] } := by
  refine ⟨h.fresh.written (h.held stream hstream).1, fun other hother => ?_,
    congrArg (· ++ _) h.requests_eq, h.reads_eq⟩
  obtain ⟨hopened, hquiet⟩ := h.held other hother
  refine ⟨hopened, hquiet.arrived, hquiet.underWay, fun number frame expected hrequest => ?_⟩
  rcases eq_or_of_getElem?_append hrequest with hearlier | ⟨-, heq⟩
  · exact hquiet.replied number frame expected hearlier
  · cases heq

/-- After a frame that asks for a reply, that reply is all that is outstanding. -/
theorem Rests.asked (h : Rests transport requests reads network)
    (hstream : transport.stream = some stream) :
    Pending stream requests.length length [] (requests ++ [⟨stream, frame, some length⟩]) reads
      { network with requests := network.requests ++ [⟨stream, frame, some length⟩] } := by
  obtain ⟨hopened, hquiet⟩ := h.held stream hstream
  refine ⟨h.fresh.written hopened, hopened, ⟨⟨frame, ?_⟩, ?_, ?_⟩,
    congrArg (· ++ _) h.requests_eq, h.reads_eq⟩
  · rw [← h.requests_eq]
    exact List.getElem?_concat_length
  · intro other frame expected hne hrequest
    rcases eq_or_of_getElem?_append hrequest with hearlier | ⟨heq, -⟩
    · exact hquiet.replied other frame expected hearlier
    · exact absurd (h.requests_eq ▸ heq) hne
  · exact .inl ⟨rfl, hquiet.arrived, hquiet.underWay⟩

/-- Behind a failed write the stream is given up. -/
theorem Rests.lost (h : Rests transport requests reads network)
    (hstream : transport.stream = some stream) :
    Rests transport.dropped (requests ++ [⟨stream, frame, expected⟩]) reads
      { network with requests := network.requests ++ [⟨stream, frame, expected⟩] } :=
  ⟨h.fresh.written (h.held stream hstream).1, nofun, congrArg (· ++ _) h.requests_eq, h.reads_eq⟩

theorem writeFrame_ensures (h : Rests transport requests reads network)
    (hstream : transport.stream = some stream) :
    (transport.writeFrame frame).Ensures (environment expected)
      (fun outcome after =>
        (outcome = (.ok (), transport) ∧ ∃ before, Rests transport requests reads before ∧
          after = { before with
            requests := before.requests ++ [⟨stream, frame, expected⟩] }) ∨
        ∃ error new, outcome = (.error error, transport.dropped) ∧ ¬ Answered (.error error) ∧
          (∀ request ∈ new, request = ⟨stream, frame, expected⟩) ∧
          Rests transport.dropped (requests ++ new) reads after) network := by
  unfold Transport.writeFrame
  rw [hstream]
  refine (Transport.reportFrame_keeps rests_stable.report h).bind fun _ first h => ?_
  refine (Transport.reportBytes_keeps rests_stable.report h).bind fun _ second h => ?_
  refine Action.ensures_perform_bind.mpr ?_
  rintro outcome third ⟨middle, hpasses, hanswers⟩
  have hmiddle := hpasses.lasts rests_stable h
  cases outcome with
  | ok _ => exact .inl ⟨rfl, middle, hmiddle, hanswers⟩
  | error interruption =>
    have hlost : ∃ new, (∀ request ∈ new, request = ⟨stream, frame, expected⟩) ∧
        Rests transport.dropped (requests ++ new) reads third := by
      rcases hanswers with rfl | rfl
      · exact ⟨[], nofun, (List.append_nil requests).symm ▸ hmiddle.dropped⟩
      · exact ⟨_, fun _ => List.mem_singleton.mp, hmiddle.lost hstream⟩
    obtain ⟨new, hnew, hthird⟩ := hlost
    refine (disconnect_ensures rests_stable hstream hthird).bind ?_
    rintro _ after ⟨rfl, hafter⟩
    have hmedium := Transport.ofMedium_exchangeError interruption
    exact .inr ⟨_, new, rfl, hmedium.not_answered, hnew, hafter⟩

/-- The first bytes of a reply. -/
theorem eq_replyTo_of_append {reply : Bytes} {segment rest : List ReplyByte}
    (h : segment ++ rest = replyTo number reply) :
    segment = replyTo number (segment.map Prod.snd) := by
  obtain ⟨first, second, -, hfirst, -⟩ := List.map_eq_append_iff.mp h.symm
  rw [← hfirst]
  exact congrArg (replyTo number) (map_snd_replyTo number first).symm

/-- What is read first is a first part of the reply. -/
theorem Pending.read {segment rest : List ReplyByte}
    (h : Pending stream number length [] requests reads network)
    (harrived : network.arrived stream = segment ++ rest) :
    Pending stream number length (segment.map Prod.snd) requests
      (reads ++ [replyTo number (segment.map Prod.snd)])
      { network with
        arrived := Function.update network.arrived stream rest
        reads := network.reads ++ [segment] } := by
  -- the bytes that arrived first are the first ones of the reply, so they carry its number
  have hsegment : segment = replyTo number (segment.map Prod.snd) := by
    rcases h.awaits.outstanding with ⟨-, hempty, -⟩ | ⟨reply, -, -, hsplit⟩
    · rw [harrived] at hempty
      rw [(List.append_eq_nil_iff.mp hempty).1]
      rfl
    · have happend : segment ++ (rest ++ network.underWay stream) = replyTo number reply := by
        rw [← hsplit, harrived]
        simp
      exact eq_replyTo_of_append happend
  have hreads : network.reads ++ [segment] =
      reads ++ [replyTo number (segment.map Prod.snd)] := by
    rw [h.reads_eq, ← hsegment]
  refine ⟨fun other hother => ?_, h.opened, ⟨h.awaits.request, h.awaits.others, ?_⟩,
    h.requests_eq, hreads⟩
  · obtain ⟨hquiet, hrequests⟩ := h.fresh other hother
    have hne : other ≠ stream := by
      rintro rfl
      exact hother h.opened
    exact ⟨⟨(Function.update_of_ne hne _ _).trans hquiet.arrived, hquiet.underWay,
      hquiet.replied⟩, hrequests⟩
  · dsimp only
    rw [Function.update_self]
    rcases h.awaits.outstanding with ⟨-, hempty, hunderWay⟩ | ⟨reply, hmem, hreply, hsplit⟩
    · rw [harrived] at hempty
      obtain ⟨rfl, rfl⟩ := List.append_eq_nil_iff.mp hempty
      exact .inl ⟨rfl, rfl, hunderWay⟩
    · refine .inr ⟨reply, hmem, hreply, ?_⟩
      rw [← hsegment, ← hsplit, harrived]
      simp

theorem readOnce_ensures (h : Pending stream number length [] requests reads network)
    (hstream : transport.stream = some stream) :
    transport.readOnce.Ensures (environment expected)
      (fun outcome after =>
        (∃ raw, outcome = (.ok raw, transport) ∧
          Pending stream number length raw requests (reads ++ [replyTo number raw]) after) ∨
        ∃ error, outcome = (.error error, transport.dropped) ∧ ¬ Answered (.error error) ∧
          Rests transport.dropped requests reads after) network := by
  unfold Transport.readOnce
  rw [hstream]
  refine Action.ensures_perform_bind.mpr ?_
  rintro outcome first ⟨middle, hpasses, hanswers⟩
  have hmiddle := hpasses.lasts pending_stable h
  cases outcome with
  | ok raw =>
    obtain ⟨segment, rest, harrived, rfl, -, -, rfl⟩ := hanswers
    have hread := hmiddle.read harrived
    refine (Transport.reportBytes_keeps pending_stable.report hread).bind fun _ after h => ?_
    exact .inl ⟨_, rfl, h⟩
  | error interruption =>
    obtain rfl := hanswers
    refine (disconnect_ensures pending_stable hstream hmiddle).bind ?_
    rintro _ after ⟨rfl, hafter⟩
    have hmedium := Transport.ofMedium_exchangeError interruption
    exact .inr ⟨_, rfl, hmedium.not_answered, hafter.dropped⟩

/-- What was read passes for an answer only if nothing is left of the reply. -/
theorem Pending.answered {raw : Bytes}
    (h : Pending stream number length raw requests reads network) (hraw : raw ≠ [])
    (hstream : transport.stream = some stream)
    (hanswered : Answered (Frame.Tcp.decode raw length)) :
    Rests transport requests reads network ∧ (number, raw) ∈ network.replies := by
  rcases h.awaits.outstanding with ⟨hempty, -, -⟩ | ⟨reply, hmem, hreply, hsplit⟩
  · exact absurd hempty hraw
  · -- the reply is what was read and what is left; if the former is an answer the latter is empty
    rw [List.append_assoc] at hsplit
    obtain ⟨first, rest, rfl, hfirst, hrest⟩ := List.map_eq_append_iff.mp hsplit.symm
    have hraw : first = raw := by
      rw [← map_snd_replyTo number first, ← map_snd_replyTo number raw]
      exact congrArg (List.map Prod.snd) hfirst
    subst hraw
    obtain rfl := hreply.whole hanswered
    obtain ⟨harrived, hunderWay⟩ := List.append_eq_nil_iff.mp hrest.symm
    rw [List.append_nil] at hmem
    refine ⟨⟨h.fresh, fun other hother => ?_, h.requests_eq, h.reads_eq⟩, hmem⟩
    rw [hstream] at hother
    cases hother
    refine ⟨h.opened, harrived, hunderWay, fun other frame expected hrequest => ?_⟩
    by_cases hother : other = number
    · exact hother ▸ ⟨first, hmem⟩
    · exact h.awaits.others other frame expected hother hrequest

theorem acceptReply_ensures {raw : Bytes}
    (h : Pending stream number length raw requests reads network) (hraw : raw ≠ [])
    (hstream : transport.stream = some stream) :
    (transport.acceptReply raw length).Ensures (environment expected)
      (fun outcome after => Rests outcome.2 requests reads after ∧
        (Answered outcome.1 →
          (number, raw) ∈ after.replies ∧ outcome.1 = Frame.Tcp.decode raw length)) network := by
  unfold Transport.acceptReply
  refine Action.ensures_require_bind not_answered_panic fun _ => ?_
  split
  next reply hdecode =>
    have hanswered : Answered (Frame.Tcp.decode raw length) := by rw [hdecode]; trivial
    have hrests := h.answered hraw hstream hanswered
    refine (Transport.reportFrame_keeps (rests_stable.and mem_replies_stable).report hrests).bind ?_
    rintro _ after ⟨hafter, hmem⟩
    exact ⟨hafter, fun _ => ⟨hmem, hdecode.symm⟩⟩
  next cause hdecode =>
    refine (disconnect_ensures pending_stable hstream h).bind ?_
    rintro _ after ⟨rfl, hafter⟩
    exact ⟨hafter.dropped, fun hfalse => hfalse.elim⟩
  next error hbad hdecode =>
    have hanswered : Answered (Frame.Tcp.decode raw length) :=
      (answered_or_badFrame raw length).resolve_right fun ⟨cause, heq⟩ =>
        hbad cause (Except.error.inj (hdecode.symm.trans heq))
    obtain ⟨hrests, hmem⟩ := h.answered hraw hstream hanswered
    exact ⟨hrests, fun _ => ⟨hmem, hdecode.symm⟩⟩

/-- A frame on a stream that asks for a reply of a length. -/
def Asks (frame : Bytes) (length : Nat) (request : Written) : Prop :=
  request.frame = frame ∧ request.expected = some length

/-- What connecting, writing a frame and reading once can come to. -/
inductive Asked (frame : Bytes) (length : Nat) (requests : List Written)
    (reads : List (List ReplyByte)) (network : Network) :
    Except RequestError Bytes × Transport → Prop where
  | failed {error : RequestError} {transport : Transport} {new : List Written}
      (not_answered : ¬ Answered (.error error)) (asks : ∀ request ∈ new, Asks frame length request)
      (rests : Rests transport (requests ++ new) reads network) :
      Asked frame length requests reads network (.error error, transport)
  | read {raw : Bytes} {transport : Transport} {stream : Handle}
      (stream_eq : transport.stream = some stream)
      (pending : Pending stream requests.length length raw
        (requests ++ [⟨stream, frame, some length⟩]) (reads ++ [replyTo requests.length raw])
        network) :
      Asked frame length requests reads network (.ok raw, transport)

theorem attempt_ensures (h : Rests transport requests reads network) :
    (transport.attempt frame).Ensures (environment (some length))
      (fun outcome after => Asked frame length requests reads after outcome) network := by
  unfold Transport.attempt
  refine (connect_ensures h).bind ?_
  rintro ⟨connection, connected⟩ first ⟨hconnected, ⟨heq, stream, hstream⟩ | ⟨error, heq, hnot⟩⟩
  case inr =>
    cases heq
    rw [← List.append_nil requests] at hconnected
    exact .failed hnot (by simp) hconnected
  case inl =>
    cases heq
    refine (writeFrame_ensures hconnected hstream).bind ?_
    rintro _ second (⟨rfl, before, hbefore, rfl⟩ | ⟨error, new, rfl, hnot, hnew, hrests⟩)
    · refine (readOnce_ensures (hbefore.asked hstream) hstream).mono ?_
      rintro _ after (⟨raw, rfl, hpending⟩ | ⟨error, rfl, hnot, hrests⟩)
      · exact .read hstream hpending
      · refine .failed hnot (fun request hmem => ?_) hrests
        rw [List.mem_singleton.mp hmem]
        exact ⟨rfl, rfl⟩
    · refine .failed hnot (fun request hmem => ?_) hrests
      rw [hnew request hmem]
      exact ⟨rfl, rfl⟩

/-- How an exchange matches its result with what it wrote and read: the reads hold no bytes of
replies to earlier requests, and an answer is the whole reply to the request written last. -/
structure Correlates (frame : Bytes) (length : Nat) (network after : Network)
    (result : Except RequestError Bytes) : Prop where
  requests : ∃ new, after.requests = network.requests ++ new ∧
    ∀ request ∈ new, Asks frame length request
  reads : ∃ new : List (List ReplyByte), after.reads = network.reads ++ new ∧
    ∀ read ∈ new, ∀ byte ∈ read, network.requests.length ≤ byte.1
  answered : Answered result → ∃ number raw earlier,
    network.requests.length ≤ number ∧ after.requests.length = number + 1 ∧
      (number, raw) ∈ after.replies ∧
      after.reads = network.reads ++ earlier ++ [replyTo number raw] ∧
      result = Frame.Tcp.decode raw length

theorem le_of_mem_replyTo {first : Nat} {reply : Bytes} {byte : ReplyByte}
    (hnumber : first ≤ number) (hmem : byte ∈ replyTo number reply) : first ≤ byte.1 := by
  obtain ⟨value, -, rfl⟩ := List.mem_map.mp hmem
  exact hnumber

/-- The end of an exchange, after `earlier` requests and reads of its own. -/
theorem settle_ensures {raw : Bytes} {before : Network} (earlier : List Written)
    (seen : List (List ReplyByte)) (hasks : ∀ request ∈ earlier, Asks frame length request)
    (hseen : ∀ read ∈ seen, ∀ byte ∈ read, before.requests.length ≤ byte.1)
    (hraw : raw ≠ []) (hstream : transport.stream = some stream)
    (h : Pending stream (before.requests ++ earlier).length length raw
      (before.requests ++ earlier ++ [⟨stream, frame, some length⟩])
      (before.reads ++ seen ++ [replyTo (before.requests ++ earlier).length raw]) network) :
    (transport.acceptReply raw length).Ensures (environment (some length))
      (fun outcome after => Rests outcome.2 after.requests after.reads after ∧
        Correlates frame length before after outcome.1) network := by
  refine (acceptReply_ensures h hraw hstream).mono ?_
  rintro ⟨result, transport'⟩ after ⟨hafter, hanswered⟩
  have hnumber : before.requests.length ≤ (before.requests ++ earlier).length := by
    rw [List.length_append]
    exact Nat.le_add_right _ _
  refine ⟨hafter.requests_eq ▸ hafter.reads_eq ▸ hafter, ?_, ?_, fun hresult => ?_⟩
  · refine ⟨earlier ++ [⟨stream, frame, some length⟩], ?_, fun request hmem => ?_⟩
    · rw [hafter.requests_eq, List.append_assoc]
    · rcases List.mem_append.mp hmem with hmem | hmem
      · exact hasks request hmem
      · rw [List.mem_singleton.mp hmem]
        exact ⟨rfl, rfl⟩
  · refine ⟨seen ++ [replyTo (before.requests ++ earlier).length raw], ?_, fun read hmem => ?_⟩
    · rw [hafter.reads_eq, List.append_assoc]
    · rcases List.mem_append.mp hmem with hmem | hmem
      · exact hseen read hmem
      · rw [List.mem_singleton.mp hmem]
        exact fun byte => le_of_mem_replyTo hnumber
  · obtain ⟨hreply, hdecode⟩ := hanswered hresult
    refine ⟨_, raw, seen, hnumber, ?_, hreply, hafter.reads_eq, hdecode⟩
    rw [hafter.requests_eq, List.length_append, List.length_singleton]

/-- The end of an exchange without an answer. -/
theorem Rests.unanswered {before : Network} {new : List Written} {seen : List (List ReplyByte)}
    {result : Except RequestError Bytes}
    (h : Rests transport (before.requests ++ new) (before.reads ++ seen) after)
    (hresult : ¬ Answered result) (hasks : ∀ request ∈ new, Asks frame length request)
    (hseen : ∀ read ∈ seen, ∀ byte ∈ read, before.requests.length ≤ byte.1) :
    Rests transport after.requests after.reads after ∧
      Correlates frame length before after result :=
  ⟨h.requests_eq ▸ h.reads_eq ▸ h, ⟨new, h.requests_eq, hasks⟩, ⟨seen, h.reads_eq, hseen⟩,
    fun hanswered => absurd hanswered hresult⟩

theorem awaitReconnect_ensures (h : Rests transport requests reads network) :
    transport.awaitReconnect.Ensures (environment expected)
      (fun _ after => Rests transport requests reads after) network := by
  unfold Transport.awaitReconnect
  split
  next => exact h
  next =>
    refine Action.ensures_require_bind not_answered_panic fun _ => ?_
    exact perform_ensures rests_stable (fun _ _ _ hanswers => hanswers) h

/-- The second half of an exchange, after the first request and what was read without finding
anything. -/
theorem retry_ensures {before : Network} {earlier : List Written} {seen : List (List ReplyByte)}
    (hasks : ∀ request ∈ earlier, Asks frame length request)
    (hseen : ∀ read ∈ seen, ∀ byte ∈ read, before.requests.length ≤ byte.1)
    (h : Rests transport (before.requests ++ earlier) (before.reads ++ seen) network) :
    (do
      match ← transport.attempt frame with
      | (.error error, transport) => return (.error error, transport)
      | (.ok [], transport) =>
          let transport ← transport.disconnect
          return (.error (.io .unexpectedEof), transport)
      | (.ok raw, transport) => transport.acceptReply raw length :
      Action (Except RequestError Bytes × Transport)).Ensures (environment (some length))
      (fun outcome after => Rests outcome.2 after.requests after.reads after ∧
        Correlates frame length before after outcome.1) network := by
  refine (attempt_ensures h).bind ?_
  intro outcome middle hasked
  cases hasked with
  | failed not_answered asks rests =>
    rw [List.append_assoc] at rests
    exact rests.unanswered not_answered (List.forall_mem_append.mpr ⟨hasks, asks⟩) hseen
  | read stream_eq pending =>
    rename_i raw connected stream
    rcases raw with _ | ⟨byte, rest⟩
    case cons => exact settle_ensures _ _ hasks hseen (List.cons_ne_nil _ _) stream_eq pending
    case nil =>
      refine (disconnect_ensures pending_stable stream_eq pending).bind ?_
      rintro _ after ⟨rfl, hafter⟩
      have hdropped : Rests connected.dropped _ _ after := hafter.dropped
      rw [List.append_assoc, List.append_assoc] at hdropped
      refine hdropped.unanswered id ?_ ?_
      · exact List.forall_mem_append.mpr ⟨hasks, List.forall_mem_singleton.mpr ⟨rfl, rfl⟩⟩
      · exact List.forall_mem_append.mpr ⟨hseen, List.forall_mem_singleton.mpr nofun⟩

theorem exchangeFrame_ensures (h : Rests transport network.requests network.reads network) :
    (transport.exchangeFrame frame length).Ensures (environment (some length))
      (fun outcome after => Rests outcome.2 after.requests after.reads after ∧
        Correlates frame length network after outcome.1) network := by
  unfold Transport.exchangeFrame
  refine (attempt_ensures h).bind ?_
  intro outcome first hfirst
  cases hfirst with
  | failed not_answered asks rests =>
    rw [← List.append_nil network.reads] at rests
    exact rests.unanswered not_answered asks nofun
  | read stream_eq pending =>
    rename_i raw connected stream
    rcases raw with _ | ⟨byte, rest⟩
    case cons =>
      refine settle_ensures [] [] nofun nofun (List.cons_ne_nil _ _) stream_eq ?_
      rw [List.append_nil, List.append_nil]
      exact pending
    case nil =>
      -- the peer has hung up: the first request stays without an answer
      refine (disconnect_ensures pending_stable stream_eq pending).bind ?_
      rintro _ closed ⟨rfl, hclosed⟩
      have hrests : Rests connected.dropped _ _ closed := hclosed.dropped
      refine (rests_stable.report _ _ hrests).bind fun _ reported hreported => ?_
      refine (awaitReconnect_ensures hreported).bind fun _ waited hwaited => ?_
      exact retry_ensures (List.forall_mem_singleton.mpr ⟨rfl, rfl⟩)
        (by simp) hwaited

theorem exchange_ensures {unit : UnitId} {function : UInt8} {payload : Bytes}
    (h : Rests transport network.requests network.reads network) :
    (transport.exchange unit function payload length).Ensures (environment (some length))
      (fun outcome after => Rests outcome.2 after.requests after.reads after ∧
        (Answered outcome.1 → ∃ frame, Frame.Tcp.encode unit function payload = .ok frame) ∧
        ∀ frame, Frame.Tcp.encode unit function payload = .ok frame →
          Correlates frame length network after outcome.1) network := by
  unfold Transport.exchange
  split
  next cause hencode =>
    refine ⟨h.of_stream rfl, fun hanswered => hanswered.elim, fun frame hframe => ?_⟩
    rw [hencode] at hframe
    cases hframe
  next frame hencode =>
    refine (exchangeFrame_ensures h).bind ?_
    rintro ⟨result, transport'⟩ after ⟨hafter, hcorrelates⟩
    refine ⟨hafter.of_stream rfl, fun _ => ⟨frame, hencode⟩, fun frame' hframe => ?_⟩
    rw [hencode] at hframe
    cases hframe
    exact hcorrelates

theorem Rests.refl (h : Rests transport requests reads network) :
    Rests transport network.requests network.reads network :=
  ⟨h.fresh, h.held, rfl, rfl⟩

theorem send_ensures {unit : UnitId} {function : UInt8} {payload : Bytes}
    (h : Rests transport requests reads network) :
    (transport.send unit function payload).Ensures (environment none)
      (fun outcome after => Rests outcome.2 after.requests after.reads after) network := by
  unfold Transport.send
  split
  next => exact h.refl.of_stream rfl
  next frame hencode =>
    refine (connect_ensures h).bind ?_
    rintro ⟨connection, connected⟩ first
      ⟨hconnected, ⟨heq, stream, hstream⟩ | ⟨error, heq, -⟩⟩
    case inr =>
      cases heq
      exact hconnected.refl.of_stream rfl
    case inl =>
      cases heq
      refine (writeFrame_ensures hconnected hstream).bind ?_
      rintro _ second (⟨rfl, before, hbefore, rfl⟩ | ⟨error, new, rfl, -, -, hrests⟩)
      · exact (hbefore.sent hstream).refl.of_stream rfl
      · exact hrests.refl.of_stream rfl

/-- Whatever a transport is used for, nothing is outstanding afterwards. -/
theorem use_ensures (use : Use) (h : Rests transport network.requests network.reads network) :
    (use.on transport).Ensures (environment use.expected?)
      (fun outcome after => Rests outcome.2 after.requests after.reads after) network := by
  cases use with
  | connect => exact (connect_ensures h).bind fun outcome after ⟨hafter, _⟩ => hafter.refl
  | disconnect =>
    cases hstream : transport.stream with
    | none =>
      change (transport.disconnect >>= _).Ensures _ _ _
      unfold Transport.disconnect
      rw [hstream]
      exact ⟨h.fresh, nofun, rfl, rfl⟩
    | some stream =>
      refine (disconnect_ensures rests_stable hstream h).bind ?_
      rintro _ after ⟨rfl, hafter⟩
      exact hafter.refl.dropped
  | send unit function payload => exact (send_ensures h).bind fun outcome after hafter => hafter
  | exchange unit function payload length =>
    exact (exchange_ensures h).mono fun outcome after hafter => hafter.1

end Network

/-- In a session with a peer that replies at most once to the requests of exchanges: when an
exchange is answered, what it read last and took for the answer is the whole reply to the request
that it wrote last, and no read of it returned a byte of a reply to an earlier exchange. -/
theorem Session.replies_correlated {resolve : String → Option Host} {settings : Settings}
    {transport transport' transport'' : Transport} {network after : Network} {unit : UnitId}
    {function : UInt8} {payload : Bytes} {length : Nat} {history : List Action.Step}
    {result : Except RequestError Bytes} (hof : Transport.of resolve settings = .ok transport)
    (hsession : Session (fun use => Network.environment use.expected?) Network.Passes transport
      Network.start transport' network)
    (hruns : (transport'.exchange unit function payload length).Runs history
      (result, transport''))
    (hallows : (Network.environment (some length)).Allows network history after)
    (hanswered : Answered result) :
    ∃ frame stream number raw earlier, Frame.Tcp.encode unit function payload = .ok frame ∧
      network.requests.length ≤ number ∧ after.requests.length = number + 1 ∧
      after.requests[number]? = some ⟨stream, frame, some length⟩ ∧
      (number, raw) ∈ after.replies ∧ result = Frame.Tcp.decode raw length ∧
      after.reads = network.reads ++ earlier ++ [replyTo number raw] ∧
      ∀ read ∈ earlier, ∀ byte ∈ read, network.requests.length ≤ byte.1 := by
  have hstart : Network.Rests transport [] [] Network.start := by
    obtain ⟨host, rfl⟩ := Transport.of_eq_ok hof
    exact ⟨fun _ _ => ⟨⟨rfl, rfl, nofun⟩, nofun⟩, nofun, rfl, rfl⟩
  have hrests : Network.Rests transport' network.requests network.reads network := by
    refine Session.invariant (fun transport network =>
      Network.Rests transport network.requests network.reads network) hsession hstart ?_ ?_
    · intro transport network after hrests hpasses
      exact (Network.Passes.lasts hpasses Network.rests_stable hrests).refl
    · exact fun use transport network hrests => Network.use_ensures use hrests
  have hexchange := Action.ensures_iff.mp (Network.exchange_ensures hrests) _ _ _ hruns hallows
  obtain ⟨-, hframe, hcorrelates⟩ := hexchange
  obtain ⟨frame, hencode⟩ := hframe hanswered
  obtain ⟨⟨new, hnew, hasks⟩, ⟨seen, hseen, hbytes⟩, hanswer⟩ := hcorrelates frame hencode
  obtain ⟨number, raw, earlier, hnumber, hlast, hreply, hreads, hdecode⟩ := hanswer hanswered
  have hrequest : ∃ request, after.requests[number]? = some request ∧ request ∈ new := by
    have hlt : number - network.requests.length < new.length := by
      rw [hnew, List.length_append] at hlast
      omega
    refine ⟨_, ?_, List.getElem_mem hlt⟩
    rw [hnew, List.getElem?_append_right hnumber, List.getElem?_eq_getElem hlt]
  obtain ⟨⟨stream, _, _⟩, hget, hmem⟩ := hrequest
  obtain ⟨rfl, rfl⟩ := hasks _ hmem
  refine ⟨_, stream, number, raw, earlier, hencode, hnumber, hlast, hget, hreply, hdecode,
    hreads, fun read hread => hbytes read ?_⟩
  rw [hreads, List.append_assoc] at hseen
  rw [← List.append_cancel_left hseen]
  exact List.mem_append_left _ hread

/-- The reply to a first exchange comes in two segments: only one of them is in time, and the other
one arrives when the stream has been given up. The same request is then answered on a new stream,
by a reply in two segments that are both in time. -/
theorem Session.replies_correlated_split :
    let transport : Transport :=
      { settings := { host := "plc", port := 502 }, host := .v4 [10, 0, 0, 7] }
    let frame : Bytes := [1, 0, 0, 0, 0, 6, 1, 3, 0, 0, 0, 1]
    let late : Bytes := [1, 0, 0, 0, 0, 5, 1, 3, 2, 0, 9]
    let prompt : Bytes := [1, 0, 0, 0, 0, 5, 1, 3, 2, 0, 7]
    ∃ transport' network history transport'' after,
      Session (fun use => Network.environment use.expected?) Network.Passes transport Network.start
        transport' network ∧
      network.reads = [replyTo 0 (late.take 6)] ∧ network.arrived 0 = replyTo 0 (late.drop 6) ∧
      (transport'.exchange ⟨1⟩ 3 [0, 0, 0, 1] 4).Runs history (.ok [3, 2, 0, 7], transport'') ∧
      (Network.environment (some 4)).Allows network history after ∧
      after.requests = [⟨0, frame, some 4⟩, ⟨1, frame, some 4⟩] ∧
      after.reads = network.reads ++ [replyTo 1 prompt] ∧
      ∃ raw, (1, raw) ∈ after.replies ∧ Frame.Tcp.decode raw 4 = .ok [3, 2, 0, 7] := by
  intro transport frame late prompt
  have hof : Transport.of (fun _ => some transport.host) transport.settings = .ok transport := rfl
  let failed : Except RequestError Bytes := .error (.badFrame (.tooShort 9 6))
  let dropped : Transport := { transport with lastAttempt := some 0, attempts := 1
                                              health := .after transport.wording failed }
  let due : Instant := transport.settings.reconnectInterval
  let asks (time : Instant) (stream : Handle) : List Action.Step :=
    [⟨.now, time⟩, ⟨.now, time⟩, ⟨.connect transport.settings transport.host, .ok stream⟩,
      ⟨.report (.connected transport.address), ()⟩,
      ⟨.transmit stream frame transport.settings.timeout, .ok ()⟩]
  let failing : List Action.Step := asks 0 0 ++
    [⟨.receive 0 Frame.maxLength transport.settings.timeout, .ok (late.take 6)⟩, ⟨.close 0, ()⟩,
      ⟨.report (.disconnected transport.address), ()⟩]
  let history : List Action.Step := asks due 1 ++
    [⟨.receive 1 Frame.maxLength transport.settings.timeout, .ok prompt⟩]
  have hfails : ((Use.exchange ⟨1⟩ 3 [0, 0, 0, 1] 4).on transport).Runs failing
      (failed, dropped) :=
    .ask (.ask (.ask (.ask (.ask (.ask (.ask (.ask (.done _))))))))
  have hruns : (dropped.exchange ⟨1⟩ 3 [0, 0, 0, 1] 4).Runs history (.ok [3, 2, 0, 7], _) :=
    .ask (.ask (.ask (.ask (.ask (.ask (.done _))))))
  have hasks : ∀ (network last : Network) time stream rest, stream ∉ network.streams →
      (Network.environment (some 4)).Allows { network with
        streams := stream :: network.streams
        requests := network.requests ++ [⟨stream, frame, some 4⟩] } rest last →
      (Network.environment (some 4)).Allows network (asks time stream ++ rest) last := by
    intro network last time stream rest hnew hrest
    refine .cons ⟨_, .refl, rfl⟩ (.cons ⟨_, .refl, rfl⟩ (.cons ⟨_, .refl, hnew, rfl⟩ ?_))
    exact .cons ⟨_, .refl, rfl⟩ (.cons ⟨_, .refl, rfl⟩ hrest)
  let replied (network : Network) (number : Nat) (stream : Handle) (reply : Bytes) : Network :=
    { network with
      replies := network.replies ++ [(number, reply)]
      underWay := Function.update network.underWay stream
        (network.underWay stream ++ replyTo number reply) }
  let delivered (network : Network) (stream : Handle) (segment rest : List ReplyByte) : Network :=
    { network with
      arrived := Function.update network.arrived stream (network.arrived stream ++ segment)
      underWay := Function.update network.underWay stream rest }
  let asked : Network :=
    { Network.start with streams := [0], requests := [⟨0, frame, some 4⟩] }
  let partly : Network :=
    delivered (replied asked 0 0 late) 0 (replyTo 0 (late.take 6)) (replyTo 0 (late.drop 6))
  have hpartly : asked.Passes partly :=
    .tail (.single (.reply rfl (fun ⟨_, hmem⟩ => List.not_mem_nil hmem)
      (.inl ⟨3, rfl, by decide, rfl⟩))) (.deliver rfl (by decide))
  let short : Network := { partly with
    arrived := Function.update partly.arrived 0 [], reads := [replyTo 0 (late.take 6)] }
  have hread : Network.environment (some 4) asked
      ⟨.receive 0 Frame.maxLength transport.settings.timeout, .ok (late.take 6)⟩ short :=
    ⟨partly, hpartly, replyTo 0 (late.take 6), [], rfl, rfl, by decide, nofun, rfl⟩
  have hshort : (Network.environment (some 4)).Allows Network.start failing short := by
    apply hasks Network.start short 0 0 _ List.not_mem_nil
    exact .cons hread (.cons ⟨_, .refl, rfl⟩ (.cons ⟨_, .refl, rfl⟩ (.nil _)))
  let overdue : Network := delivered short 0 (replyTo 0 (late.drop 6)) []
  have hoverdue : short.Passes overdue := .single (.deliver rfl (by decide))
  have hsession : Session (fun use => Network.environment use.expected?) Network.Passes transport
      Network.start dropped overdue := .idle (.use .start hfails hshort) hoverdue
  let asked' : Network := { overdue with
    streams := [1, 0], requests := [⟨0, frame, some 4⟩, ⟨1, frame, some 4⟩] }
  let half : Network :=
    delivered (replied asked' 1 1 prompt) 1 (replyTo 1 (prompt.take 6)) (replyTo 1 (prompt.drop 6))
  let whole : Network := delivered half 1 (replyTo 1 (prompt.drop 6)) []
  have hunreplied : ¬ asked'.Replied 1 := by
    rintro ⟨reply, hmem⟩
    cases List.mem_singleton.mp hmem
  have hwhole : asked'.Passes whole :=
    .tail (.tail (.single (.reply rfl hunreplied (.inl ⟨3, rfl, by decide, rfl⟩)))
      (.deliver rfl (by decide))) (.deliver rfl (by decide))
  let read : Network := { whole with
    arrived := Function.update whole.arrived 1 [], reads := overdue.reads ++ [replyTo 1 prompt] }
  have hread' : Network.environment (some 4) asked'
      ⟨.receive 1 Frame.maxLength transport.settings.timeout, .ok prompt⟩ read :=
    ⟨whole, hwhole, replyTo 1 prompt, [], rfl, rfl, by decide, nofun, rfl⟩
  have hallows : (Network.environment (some 4)).Allows overdue history read :=
    hasks overdue read due 1 _ (by decide) (.cons hread' (.nil _))
  refine ⟨dropped, overdue, history, _, read, hsession, rfl, rfl, hruns, hallows, rfl, rfl, ?_⟩
  obtain ⟨_, _, number, raw, earlier, -, -, hlast, -, hmem, hdecode, -, -⟩ :=
    Session.replies_correlated hof hsession hruns hallows trivial
  have hnumber : number = 1 := (Nat.succ.inj hlast).symm
  exact ⟨raw, hnumber ▸ hmem, hdecode.symm⟩

end ModbusMaster.Tcp
