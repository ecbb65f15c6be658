import Mathlib.Logic.Function.Basic
import ModbusMaster.Proofs.Tcp.Delivery

/-!
A peer that replies to every frame it reads, whether the frame was written by an exchange or was
only sent. Its replies come one after the other, each in one segment and in time. As long as
nothing that is replied to was only sent on a stream, an exchange on it is answered by the reply to
its own request (`Session.replies_own`). The reply to what was only sent stays in the stream, and
the next exchange takes it for its own (`Session.takes_reply_of_send`): nothing is dropped from a
stream before a request is written, as it is from a serial line.
-/

namespace ModbusMaster.Tcp

/-- A frame that a peer has read, and the reply to it. -/
structure Served where
  stream : Handle
  frame : Bytes
  /-- How many bytes of the reply are read, or nothing if the frame was only sent. -/
  expected : Option Nat
  reply : Bytes
  deriving DecidableEq

/-- A peer with the replies that were not read yet. -/
structure Responder where
  /-- The streams that were opened. -/
  streams : List Handle
  /-- The streams on which the peer has hung up. -/
  ended : List Handle
  /-- The frames that the peer has read, in the order of their numbers. -/
  served : List Served
  unread : Handle → List ReplyByte

namespace Responder

/-- Before the first use. -/
def start : Responder where
  streams := []
  ended := []
  served := []
  unread := fun _ => []

/-- The peer when it has read a frame and replied to it. -/
def serve (peer : Responder) (request : Served) : Responder :=
  { peer with
    served := peer.served ++ [request]
    unread := Function.update peer.unread request.stream
      (peer.unread request.stream ++ replyTo peer.served.length request.reply) }

/-- The peer when it has hung up on a stream. -/
def hangUp (peer : Responder) (stream : Handle) : Responder :=
  { peer with ended := stream :: peer.ended }

/-- How the peer and the network answer one thing that is seen. A frame on an open stream is read
and replied to, unless it is a broadcast or the peer has hung up before. A read returns what has
come, no more than fits: nothing only when all was read and the peer has hung up, and no part of a
reply unless the buffer is full. It does not time out while there is something to read. -/
def Answers (expected : Option Nat) (peer : Responder) : Traffic → Responder → Prop
  | .attempt _ (.ok stream), after =>
      stream ∉ peer.streams ∧ after = { peer with streams := stream :: peer.streams }
  | .write stream frame _, after =>
      (∃ reply, reply ≠ [] ∧ reply.length ≤ Frame.maxLength ∧ stream ∈ peer.streams ∧
        stream ∉ peer.ended ∧ after = peer.serve ⟨stream, frame, expected, reply⟩) ∨
      after = peer.hangUp stream ∨ (frame.head? = some 0 ∧ after = peer)
  | .read stream (.ok raw), after =>
      (raw = [] ∧ peer.unread stream = [] ∧ after = peer.hangUp stream) ∨
      ∃ segment rest, peer.unread stream = segment ++ rest ∧ segment ≠ [] ∧
        raw = segment.map Prod.snd ∧ raw.length ≤ Frame.maxLength ∧
        (raw.length < Frame.maxLength → ∀ a ∈ segment, ∀ b ∈ rest, a.1 ≠ b.1) ∧
        after = { peer with unread := Function.update peer.unread stream rest }
  | .read stream (.error .elapsed), after => peer.unread stream = [] ∧ after = peer
  | _, after => after = peer

/-- The peer answers everything that is seen, one thing after the other. -/
inductive Follows (expected : Option Nat) : Responder → List Traffic → Responder → Prop where
  | nil (peer : Responder) : Follows expected peer [] peer
  | cons {peer middle after : Responder} {item : Traffic} {rest : List Traffic}
      (answers : peer.Answers expected item middle) (follows : Follows expected middle rest after) :
      Follows expected peer (item :: rest) after

/-- An onlooker, and the peer that is looked at. -/
def environment (expected : Option Nat) : Environment (Watch × Responder) :=
  fun state step after => watched state.1 step after.1 ∧
    ∃ seen, after.1.traffic = state.1.traffic ++ seen ∧ state.2.Follows expected seen after.2

/-- While nobody uses the transport time passes. -/
def Idles (state after : Watch × Responder) : Prop :=
  state.1.Waits after.1 ∧ after.2 = state.2

variable {peer middle after : Responder} {expected : Option Nat} {seen seen' : List Traffic}
  {item : Traffic} {stream : Handle} {streams : List Handle}

theorem follows_append :
    peer.Follows expected (seen ++ seen') after ↔
      ∃ middle, peer.Follows expected seen middle ∧ middle.Follows expected seen' after := by
  induction seen generalizing peer with
  | nil =>
    constructor
    · exact fun h => ⟨peer, .nil peer, h⟩
    · intro h
      obtain ⟨middle, hfirst, hsecond⟩ := h
      cases hfirst
      exact hsecond
  | cons item rest ih =>
    constructor
    · intro h
      cases h with
      | cons answers follows =>
        obtain ⟨middle, hfirst, hsecond⟩ := ih.mp follows
        exact ⟨middle, .cons answers hfirst, hsecond⟩
    · intro h
      obtain ⟨middle, hfirst, hsecond⟩ := h
      cases hfirst with
      | cons answers follows => exact .cons answers (ih.mpr ⟨middle, follows, hsecond⟩)

/-- What is allowed is what is seen, and the peer follows it. -/
theorem follows_of_allows {state after : Watch × Responder} {history : List Action.Step}
    (h : (environment expected).Allows state history after) :
    watched.Allows state.1 history after.1 ∧
      ∃ seen, after.1.traffic = state.1.traffic ++ seen ∧
        state.2.Follows expected seen after.2 := by
  induction h with
  | nil state => exact ⟨.nil _, [], (List.append_nil _).symm, .nil _⟩
  | cons answer rest ih =>
    obtain ⟨hwatched, seen, htraffic, hfollows⟩ := answer
    obtain ⟨hallows, seen', htraffic', hfollows'⟩ := ih
    refine ⟨.cons hwatched hallows, seen ++ seen', ?_, follows_append.mpr ⟨_, hfollows, hfollows'⟩⟩
    rw [htraffic', htraffic, List.append_assoc]

/-! ### Clean streams -/

/-- Nothing was only sent on a stream. -/
def Solicited (peer : Responder) (stream : Handle) : Prop :=
  ∀ request ∈ peer.served, request.stream = stream → request.expected ≠ none

/-- Nothing is left to read on the open streams to which nothing was only sent, and nothing has
happened on streams that were not opened yet. -/
structure Clean (peer : Responder) (streams : List Handle) : Prop where
  unread : ∀ stream ∈ streams, peer.Solicited stream → peer.unread stream = []
  opened : ∀ stream ∈ streams, stream ∈ peer.streams
  fresh : ∀ stream ∉ peer.streams, peer.unread stream = [] ∧
    ∀ request ∈ peer.served, request.stream ≠ stream

theorem Clean.solicited (h : peer.Clean streams) (hunused : stream ∉ peer.streams) :
    peer.Solicited stream :=
  fun request hmem heq => absurd heq ((h.fresh stream hunused).2 request hmem)

theorem Clean.mono {streams' : List Handle} (h : peer.Clean streams)
    (hsub : ∀ stream ∈ streams', stream ∈ streams) : peer.Clean streams' where
  unread := fun stream hmem => h.unread stream (hsub stream hmem)
  opened := fun stream hmem => h.opened stream (hsub stream hmem)
  fresh := h.fresh

theorem Clean.hangUp (h : peer.Clean streams) (stream : Handle) :
    (peer.hangUp stream).Clean streams :=
  ⟨h.unread, h.opened, h.fresh⟩

/-- A stream is clean when it is opened. -/
theorem Clean.connected (h : peer.Clean streams) (hunused : stream ∉ peer.streams) :
    Clean { peer with streams := stream :: peer.streams } (stream :: streams) where
  unread other hmem hsolicited := by
    cases List.mem_cons.mp hmem with
    | inl heq => exact heq ▸ (h.fresh stream hunused).1
    | inr hmem => exact h.unread other hmem hsolicited
  opened other hmem := by
    cases List.mem_cons.mp hmem with
    | inl heq => exact heq ▸ List.mem_cons_self
    | inr hmem => exact List.mem_cons_of_mem _ (h.opened other hmem)
  fresh other hother := h.fresh other fun hmem => hother (List.mem_cons_of_mem _ hmem)

theorem serve_unread (peer : Responder) (request : Served) :
    (peer.serve request).unread request.stream =
      peer.unread request.stream ++ replyTo peer.served.length request.reply :=
  Function.update_self _ _ _

/-- What is served on an open stream leaves the streams unused that were not opened. -/
theorem Clean.fresh_serve {request : Served} (h : peer.Clean streams)
    (hopened : request.stream ∈ peer.streams) (hother : stream ∉ peer.streams) :
    (peer.serve request).unread stream = [] ∧
      ∀ served ∈ (peer.serve request).served, served.stream ≠ stream := by
  have hne : stream ≠ request.stream := fun heq => hother (heq ▸ hopened)
  obtain ⟨hunread, hserved⟩ := h.fresh stream hother
  constructor
  · exact (Function.update_of_ne hne _ _).trans hunread
  · intro served hmem
    cases List.mem_append.mp hmem with
    | inl hmem => exact hserved served hmem
    | inr hmem => exact List.mem_singleton.mp hmem ▸ hne.symm

/-- A frame that is only sent makes its stream one that is no longer solicited. -/
theorem Clean.sent {frame reply : Bytes} (h : peer.Clean streams)
    (hopened : stream ∈ peer.streams) :
    (peer.serve ⟨stream, frame, none, reply⟩).Clean streams where
  unread other hmem hsolicited := by
    by_cases heq : other = stream
    · subst heq
      exact absurd rfl (hsolicited _ (List.mem_append_right _ (List.mem_singleton_self _)) rfl)
    · have hother : peer.Solicited other :=
        fun request hrequest => hsolicited request (List.mem_append_left _ hrequest)
      exact (Function.update_of_ne heq _ _).trans (h.unread other hmem hother)
  opened := h.opened
  fresh _ hother := h.fresh_serve hopened hother

/-- Reading takes from the stream that is read only. -/
theorem Clean.read {segment rest : List ReplyByte} (h : peer.Clean streams)
    (hunread : peer.unread stream = segment ++ rest) :
    Clean { peer with unread := Function.update peer.unread stream rest } streams where
  unread other hmem hsolicited := by
    have hempty := h.unread other hmem hsolicited
    by_cases heq : other = stream
    · subst heq
      rw [hunread] at hempty
      exact (Function.update_self _ _ _).trans (List.append_eq_nil_iff.mp hempty).2
    · exact (Function.update_of_ne heq _ _).trans hempty
  opened := h.opened
  fresh other hother := by
    obtain ⟨hempty, hserved⟩ := h.fresh other hother
    refine ⟨?_, hserved⟩
    by_cases heq : other = stream
    · subst heq
      rw [hunread] at hempty
      exact (Function.update_self _ _ _).trans (List.append_eq_nil_iff.mp hempty).2
    · exact (Function.update_of_ne heq _ _).trans hempty

/-- Open streams stay clean except when a request is written that a reply is read to. -/
theorem Clean.answers (h : peer.Clean streams) (hquiet : expected = none ∨ item.isWrite = false)
    (hanswers : peer.Answers expected item after) : after.Clean (item.after streams) := by
  cases item with
  | attempt start outcome =>
    cases outcome with
    | ok stream =>
      obtain ⟨hunused, rfl⟩ := hanswers
      exact h.connected hunused
    | error interruption =>
      cases hanswers
      exact h
  | write stream frame outcome =>
    cases hanswers with
    | inl hserved =>
      obtain ⟨reply, -, -, hopened, -, rfl⟩ := hserved
      cases hquiet with
      | inl hnone =>
        subst hnone
        exact h.sent hopened
      | inr hwrite => cases hwrite
    | inr hunserved =>
      rcases hunserved with rfl | ⟨-, rfl⟩
      · exact h.hangUp stream
      · exact h
  | read stream outcome =>
    cases outcome with
    | ok raw =>
      cases hanswers with
      | inl hended =>
        obtain ⟨-, -, rfl⟩ := hended
        exact h.hangUp stream
      | inr hread =>
        obtain ⟨segment, rest, hunread, -, -, -, -, rfl⟩ := hread
        exact h.read hunread
    | error interruption =>
      cases interruption with
      | failed kind =>
        cases hanswers
        exact h
      | elapsed =>
        obtain ⟨-, rfl⟩ := hanswers
        exact h
  | close stream =>
    cases hanswers
    exact h.mono fun other hmem => List.mem_of_mem_erase hmem

theorem Clean.follows (h : peer.Clean streams)
    (hquiet : ∀ item ∈ seen, expected = none ∨ item.isWrite = false)
    (hfollows : peer.Follows expected seen after) :
    after.Clean (seen.foldl Traffic.after streams) := by
  induction hfollows generalizing streams with
  | nil => exact h
  | cons answers follows ih =>
    have hitem := h.answers (hquiet _ List.mem_cons_self) answers
    exact ih hitem fun item hmem => hquiet item (List.mem_cons_of_mem _ hmem)

/-! ### A request and its reply -/

/-- The only reply that is unread is read as a whole. -/
theorem whole_of_read {number : Nat} {reply : Bytes} {segment rest : List ReplyByte}
    (hsplit : replyTo number reply = segment ++ rest) (hlength : reply.length ≤ Frame.maxLength)
    (hne : segment ≠ [])
    (hcut : segment.length < Frame.maxLength → ∀ a ∈ segment, ∀ b ∈ rest, a.1 ≠ b.1) :
    rest = [] := by
  by_contra hrest
  obtain ⟨a, ha⟩ := List.exists_mem_of_ne_nil segment hne
  obtain ⟨b, hb⟩ := List.exists_mem_of_ne_nil rest hrest
  -- all bytes carry the same number, so the read would have had to be a full one
  have hnumber : ∀ byte ∈ segment ++ rest, byte.1 = number := by
    intro byte hmem
    rw [← hsplit] at hmem
    obtain ⟨value, -, rfl⟩ := List.mem_map.mp hmem
    rfl
  have hshort : segment.length < Frame.maxLength := by
    have htotal : reply.length = segment.length + rest.length := by
      rw [← List.length_append, ← hsplit, replyTo, List.length_map]
    have hpos := List.length_pos_of_mem hb
    omega
  apply hcut hshort a ha b hb
  rw [hnumber a (List.mem_append_left _ ha), hnumber b (List.mem_append_right _ hb)]

variable {frame raw : Bytes} {length : Nat}

/-- What was read is nothing, from a peer that has not replied to the request, or the whole reply to
it. -/
def Replies (peer : Responder) (stream : Handle) (frame : Bytes) (length : Nat) (raw : Bytes)
    (after : Responder) : Prop :=
  (raw = [] ∧ after.served = peer.served) ∨
    (raw ≠ [] ∧ after.served = peer.served ++ [⟨stream, frame, some length, raw⟩])

/-- A request that the peer reads is followed by a read of its reply. -/
theorem Clean.served {reply : Bytes} (h : peer.Clean [stream]) (hreply : reply ≠ [])
    (hlength : reply.length ≤ Frame.maxLength) (hopened : stream ∈ peer.streams)
    (hread : (peer.serve ⟨stream, frame, some length, reply⟩).Answers (some length)
      (.read stream (.ok raw)) after) :
    after.Clean [stream] ∧
      (peer.Solicited stream → peer.Replies stream frame length raw after) := by
  have hserve := serve_unread peer ⟨stream, frame, some length, reply⟩
  cases hread with
  | inl hended =>
    -- the reply is there to be read, so the stream has not ended for the reader
    obtain ⟨-, hempty, -⟩ := hended
    rw [hserve] at hempty
    have hnil := (List.append_eq_nil_iff.mp hempty).2
    exact absurd (List.map_eq_nil_iff.mp hnil) hreply
  | inr hread =>
    obtain ⟨segment, rest, hunread, hne, hraw, -, hcut, rfl⟩ := hread
    -- on a stream that was solicited the reply is all that is unread
    have hwhole : peer.Solicited stream → rest = [] ∧ raw = reply := by
      intro hsolicited
      have hempty := h.unread stream (List.mem_singleton_self stream) hsolicited
      have hsplit : replyTo peer.served.length reply = segment ++ rest := by
        rw [← hunread, hserve, hempty, List.nil_append]
      have hrest : rest = [] := by
        apply whole_of_read hsplit hlength hne
        intro hlt
        apply hcut
        rw [hraw, List.length_map]
        exact hlt
      rw [hrest, List.append_nil] at hsplit
      exact ⟨hrest, by rw [hraw, ← hsplit, map_snd_replyTo]⟩
    constructor
    · constructor
      case unread =>
        intro other hmem hsolicited
        obtain rfl := List.mem_singleton.mp hmem
        have hpeer : peer.Solicited other :=
          fun request hrequest => hsolicited request (List.mem_append_left _ hrequest)
        exact (Function.update_self _ _ _).trans (hwhole hpeer).1
      case opened => exact h.opened
      case fresh =>
        have hserved : (peer.serve ⟨stream, frame, some length, reply⟩).Clean [] :=
          ⟨nofun, nofun, fun other hother => h.fresh_serve hopened hother⟩
        exact (hserved.read hunread).fresh
    · intro hsolicited
      obtain ⟨-, rfl⟩ := hwhole hsolicited
      exact .inr ⟨hreply, rfl⟩

/-- A request that the peer does not reply to is followed by a read that finds nothing. -/
theorem Clean.unserved (h : peer.Clean [stream])
    (hread : peer.Answers (some length) (.read stream (.ok raw)) after) :
    after.Clean [stream] ∧
      (peer.Solicited stream → peer.Replies stream frame length raw after) := by
  constructor
  · exact h.answers (.inr rfl) hread
  · intro hsolicited
    have hempty := h.unread stream (List.mem_singleton_self stream) hsolicited
    cases hread with
    | inl hended =>
      obtain ⟨rfl, -, rfl⟩ := hended
      exact .inl ⟨rfl, rfl⟩
    | inr hread =>
      obtain ⟨segment, rest, hunread, hne, -⟩ := hread
      rw [hempty] at hunread
      exact absurd (List.append_eq_nil_iff.mp hunread.symm).1 hne

theorem Clean.asked (h : peer.Clean [stream])
    (hfollows : peer.Follows (some length)
      [.write stream frame (.ok ()), .read stream (.ok raw)] after) :
    after.Clean [stream] ∧
      (peer.Solicited stream → peer.Replies stream frame length raw after) := by
  cases hfollows with
  | cons hwrite hfollows =>
  cases hfollows with
  | cons hread hfollows =>
  cases hfollows with
  | nil =>
  cases hwrite with
  | inl hserved =>
    obtain ⟨reply, hne, hlength, hopened, -, rfl⟩ := hserved
    exact h.served hne hlength hopened hread
  | inr hunserved =>
    rcases hunserved with rfl | ⟨-, rfl⟩
    · exact (h.hangUp stream).unserved hread
    · exact h.unserved hread

/-- Whatever happens, streams that were not opened yet stay unused. -/
theorem Clean.follows_nil (h : peer.Clean []) (hfollows : peer.Follows expected seen after) :
    after.Clean [] := by
  induction hfollows with
  | nil => exact h
  | cons answers follows ih =>
    rename_i peer middle _ item _
    apply ih
    cases hwrite : item.isWrite with
    | false => exact (h.answers (.inr hwrite) answers).mono nofun
    | true =>
      cases item with
      | write stream frame outcome =>
        cases answers with
        | inl hserved =>
          obtain ⟨reply, -, -, hopened, -, rfl⟩ := hserved
          exact ⟨nofun, nofun, fun other hother => h.fresh_serve hopened hother⟩
        | inr hunserved =>
          rcases hunserved with rfl | ⟨-, rfl⟩
          · exact h.hangUp stream
          · exact h
      | _ => cases hwrite

end Responder

namespace Transport

open Responder

variable {transport transport' : Transport} {now : Instant} {frame raw : Bytes} {length : Nat}
  {seen : List Traffic} {result : Except RequestError Bytes} {peer after : Responder}
  {stream : Handle}

/-- What a round has read on a clean stream is the reply to its request. -/
theorem Round.replies (h : transport.Round now frame seen (.ok raw) transport')
    (hstream : transport'.stream = some stream) (hclean : peer.Clean transport.stream.toList)
    (hfollows : peer.Follows (some length) seen after) :
    after.Clean [stream] ∧
      ((∀ held, transport.stream = some held → peer.Solicited held) →
        peer.Replies stream frame length raw after) := by
  obtain ⟨opening, rfl, hopens⟩ := h.opening hstream
  obtain ⟨middle, hopening, hasked⟩ := follows_append.mp hfollows
  cases hopens with
  | held stream_eq =>
    cases hopening
    rw [stream_eq] at hclean
    obtain ⟨hafter, hreplies⟩ := hclean.asked hasked
    exact ⟨hafter, fun hsolicited => hreplies (hsolicited stream stream_eq)⟩
  | opened stream_eq =>
    -- on a stream that was just opened nothing can have been sent
    cases hopening with
    | cons answers follows =>
      cases follows
      obtain ⟨hunused, rfl⟩ := answers
      rw [stream_eq] at hclean
      obtain ⟨hafter, hreplies⟩ := (hclean.connected hunused).asked hasked
      exact ⟨hafter, fun _ => hreplies (hclean.solicited hunused)⟩

theorem Round.stream_eq_none {error : RequestError}
    (h : transport.Round now frame seen (.error error) transport') : transport'.stream = none := by
  cases h with
  | unconnected connects =>
    cases connects with
    | early stream_eq => exact stream_eq
    | failed _ _ stream_eq => exact stream_eq
  | unwritten => rfl
  | unread => rfl

/-- A stream is left only by what was accepted. -/
theorem Settles.accepted_of_stream {outcome : Except RequestError Bytes} {closing : List Traffic}
    {middle : Transport} (hround : transport.Round now frame seen outcome middle)
    (h : middle.Settles length outcome closing result transport')
    (hstream : transport'.stream = some stream) :
    transport' = middle ∧ closing = [] ∧
      ∃ raw, outcome = .ok raw ∧ raw ≠ [] ∧ result = Frame.Tcp.decode raw length := by
  cases h with
  | failed =>
    rw [hround.stream_eq_none] at hstream
    cases hstream
  | ended => cases hstream
  | rejected => cases hstream
  | accepted raw_ne => exact ⟨rfl, rfl, _, rfl, raw_ne, rfl⟩

theorem EndsWith.not_answered (h : transport.EndsWith result) (hnone : transport.stream = none) :
    ¬ Answered result := by
  intro hanswered
  unfold EndsWith at h
  rw [hnone] at h
  cases result with
  | ok reply => cases h
  | error error =>
    cases error with
    | exception code => cases h
    | _ => exact hanswered

/-- An exchange leaves its stream clean, and when nothing was only sent on the stream that it found,
its answer is the reply to its own request. -/
theorem Exchanges.replies (h : transport.Exchanges now frame length seen result transport')
    (hclean : peer.Clean transport.stream.toList)
    (hfollows : peer.Follows (some length) seen after) :
    after.Clean transport'.stream.toList ∧
      ((∀ held, transport.stream = some held → peer.Solicited held) → Answered result →
        ∃ stream reply, after.served = peer.served ++ [⟨stream, frame, some length, reply⟩] ∧
          result = Frame.Tcp.decode reply length) := by
  cases hstream : transport'.stream with
  | none =>
    have hnot := h.endsWith.not_answered hstream
    have hnone : peer.Clean [] := hclean.mono nofun
    exact ⟨hnone.follows_nil hfollows, fun _ hanswered => absurd hanswered hnot⟩
  | some stream =>
    cases h with
    | once round outcome_ne settles =>
      obtain ⟨hmiddle, hclosing, raw, houtcome, hraw, hresult⟩ :=
        settles.accepted_of_stream round hstream
      subst hmiddle hclosing houtcome
      rw [List.append_nil] at hfollows
      obtain ⟨hafter, hreplies⟩ := round.replies hstream hclean hfollows
      refine ⟨hafter, fun hsolicited _ => ?_⟩
      cases hreplies hsolicited with
      | inl hnothing => exact absurd hnothing.1 hraw
      | inr hreply => exact ⟨stream, raw, hreply.2, hresult⟩
    | again round stream_eq due round' settles =>
      obtain ⟨hmiddle, hclosing, raw, houtcome, hraw, hresult⟩ :=
        settles.accepted_of_stream round' hstream
      subst hmiddle hclosing houtcome
      rw [List.append_nil] at hfollows
      -- the stream that the peer has closed is closed on this side too
      obtain ⟨asked, hfirst, hrest⟩ := follows_append.mp hfollows
      obtain ⟨hasked, hnothing⟩ := round.replies stream_eq hclean hfirst
      cases hrest with
      | cons answers hsecond =>
      cases answers
      have hdropped : asked.Clean [] := hasked.mono nofun
      obtain ⟨hafter, hreplies⟩ := round'.replies hstream hdropped hsecond
      refine ⟨hafter, fun hsolicited _ => ?_⟩
      have hserved : asked.served = peer.served := by
        cases hnothing hsolicited with
        | inl hnothing => exact hnothing.2
        | inr hreply => exact absurd rfl hreply.1
      cases hreplies nofun with
      | inl hnothing => exact absurd hnothing.1 hraw
      | inr hreply => exact ⟨stream, raw, hserved ▸ hreply.2, hresult⟩

end Transport

open Responder

/-- What an exchange leaves when its frame can be encoded, and what its answer is. -/
theorem Transport.exchange_replies {transport transport' : Transport} {watch watch' : Watch}
    {peer peer' : Responder} {unit : UnitId} {function : UInt8} {payload frame : Bytes}
    {length : Nat} {history : List Action.Step} {result : Except RequestError Bytes}
    (hencode : Frame.Tcp.encode unit function payload = .ok frame)
    (hagrees : transport.Agrees watch) (hclean : peer.Clean transport.stream.toList)
    (hruns : (transport.exchange unit function payload length).Runs history (result, transport'))
    (hallows : (Responder.environment (some length)).Allows (watch, peer) history
      (watch', peer')) :
    peer'.Clean transport'.stream.toList ∧
      ((∀ held, transport.stream = some held → peer.Solicited held) → Answered result →
        ∃ stream reply, peer'.served = peer.served ++ [⟨stream, frame, some length, reply⟩] ∧
          result = Frame.Tcp.decode reply length) := by
  obtain ⟨hwatched, seen, htraffic, hfollows⟩ := follows_of_allows hallows
  have hrounds : (transport.exchange unit function payload length).Ensures watched _ watch :=
    Transport.exchange_rounds Transport.Agrees.kept hagrees hencode
  obtain ⟨middle, seen', heq, -, -, htraffic', hexchanges⟩ :=
    Action.ensures_iff.mp hrounds _ _ _ hruns hwatched
  obtain rfl : seen = seen' := List.append_cancel_left (htraffic.symm.trans htraffic')
  obtain rfl : transport' = middle.after result := heq
  exact hexchanges.replies hclean hfollows

/-- Whatever a transport is used for, what is known of its stream lasts. -/
theorem Use.keeps_clean {use : Use} {transport transport' : Transport} {watch watch' : Watch}
    {peer peer' : Responder} {history : List Action.Step} {result : Except RequestError Bytes}
    (hagrees : transport.Agrees watch) (hclean : peer.Clean transport.stream.toList)
    (hruns : (use.on transport).Runs history (result, transport'))
    (hallows : (Responder.environment use.expected?).Allows (watch, peer) history (watch', peer')) :
    transport'.Agrees watch' ∧ peer'.Clean transport'.stream.toList := by
  obtain ⟨hwatched, seen, htraffic, hfollows⟩ := follows_of_allows hallows
  have hafter := (Action.ensures_iff.mp (use.on_ensures hagrees) _ _ _ hruns hwatched).1
  refine ⟨hafter, ?_⟩
  -- what is seen opens and closes the streams that are held in the end
  have hquiet : use.expected? = none → peer'.Clean transport'.stream.toList := by
    intro hnone
    have hstreams : seen.foldl Traffic.after transport.stream.toList =
        transport'.stream.toList := by
      rw [← hafter.streams, htraffic, Traffic.openStreams, List.foldl_append, ← hagrees.streams]
      rfl
    rw [← hstreams]
    exact hclean.follows (fun _ _ => .inl hnone) hfollows
  cases use with
  | exchange unit function payload length =>
    cases hencode : Frame.Tcp.encode unit function payload with
    | ok frame => exact (Transport.exchange_replies hencode hagrees hclean hruns hallows).1
    | error cause =>
      change (transport.exchange unit function payload length).Runs _ _ at hruns
      rw [Transport.exchange_of_error hencode] at hruns
      cases hruns
      cases hallows
      exact hclean
  | _ => exact hquiet rfl

/-- In a session with a peer that replies to every frame it reads: when nothing was only sent on
the stream that is held, an answered exchange has made the peer read one frame, its own request,
and is answered by the reply to it. -/
theorem Session.replies_own {resolve : String → Option Host} {settings : Settings}
    {transport transport' transport'' : Transport} {watch watch' watch'' : Watch}
    {peer peer' : Responder} {unit : UnitId} {function : UInt8} {payload : Bytes} {length : Nat}
    {history : List Action.Step} {result : Except RequestError Bytes}
    (hof : Transport.of resolve settings = .ok transport) (hwatch : watch.traffic = [])
    (hsession : Session (fun use => Responder.environment use.expected?) Responder.Idles transport
      (watch, Responder.start) transport' (watch', peer))
    (hsolicited : ∀ stream, transport'.stream = some stream → peer.Solicited stream)
    (hruns : (transport'.exchange unit function payload length).Runs history
      (result, transport''))
    (hallows : (Responder.environment (some length)).Allows (watch', peer) history
      (watch'', peer'))
    (hanswered : Answered result) :
    ∃ frame stream reply, Frame.Tcp.encode unit function payload = .ok frame ∧
      peer'.served = peer.served ++ [⟨stream, frame, some length, reply⟩] ∧
      result = Frame.Tcp.decode reply length := by
  have hinv : transport'.Agrees watch' ∧ peer.Clean transport'.stream.toList := by
    have hstart : Responder.start.Clean transport.stream.toList := by
      obtain ⟨host, rfl⟩ := Transport.of_eq_ok hof
      exact ⟨nofun, nofun, fun _ _ => ⟨rfl, nofun⟩⟩
    apply Session.invariant (fun transport state => transport.Agrees state.1 ∧
      state.2.Clean transport.stream.toList) hsession ⟨(Transport.of_agrees hof hwatch).1, hstart⟩
    · intro transport state after hinv hidles
      obtain ⟨⟨hclock, heq⟩, hpeer⟩ := hidles
      have htraffic : after.1.traffic = state.1.traffic := by rw [heq]
      exact ⟨hinv.1.later hclock htraffic, hpeer ▸ hinv.2⟩
    · intro use transport state hinv
      apply Action.ensures_iff.mpr
      intro history outcome after hruns hallows
      exact Use.keeps_clean hinv.1 hinv.2 hruns hallows
  cases hencode : Frame.Tcp.encode unit function payload with
  | error cause =>
    rw [Transport.exchange_of_error hencode] at hruns
    cases hruns
    exact hanswered.elim
  | ok frame =>
    have hreplies := (Transport.exchange_replies hencode hinv.1 hinv.2 hruns hallows).2
    obtain ⟨stream, reply, hserved, hresult⟩ := hreplies hsolicited hanswered
    exact ⟨frame, stream, reply, rfl, hserved, hresult⟩

/-- A call that an onlooker does not see is no matter for the peer. -/
theorem Responder.environment_unseen {expected : Option Nat} {watch : Watch} {peer : Responder}
    {step : Action.Step} (hseen : watch.trafficAfter step = watch.traffic)
    (htime : watch.keepsTime watch.clock step) :
    Responder.environment expected (watch, peer) step (watch.after watch.clock step, peer) :=
  ⟨⟨watch.clock, Nat.le_refl _, htime, rfl⟩, [], hseen.trans (List.append_nil _).symm, .nil peer⟩

/-- What an onlooker sees is answered by the peer. -/
theorem Responder.environment_seen {expected : Option Nat} {watch : Watch} {peer after : Responder}
    {step : Action.Step} {item : Traffic}
    (hseen : watch.trafficAfter step = watch.traffic ++ [item])
    (htime : watch.keepsTime watch.clock step) (hanswers : peer.Answers expected item after) :
    Responder.environment expected (watch, peer) step (watch.after watch.clock step, after) :=
  ⟨⟨watch.clock, Nat.le_refl _, htime, rfl⟩, [item], hseen, .cons hanswers (.nil after)⟩

/-- A register is written without waiting for the reply, and another one by an exchange, but on a
new stream: the reply to the first stays behind on the old one. -/
theorem Session.replies_own_reconnected :
    let transport : Transport :=
      { settings := { host := "plc", port := 502 }, host := .v4 [10, 0, 0, 7] }
    let first : Bytes := [1, 0, 0, 0, 0, 6, 1, 6, 0, 4, 0, 9]
    let second : Bytes := [1, 0, 0, 0, 0, 6, 1, 6, 0, 5, 0, 7]
    ∃ transport' watch peer history transport'' watch' peer',
      Session (fun use => Responder.environment use.expected?) Responder.Idles transport
        (⟨0, 0, []⟩, Responder.start) transport' (watch, peer) ∧
      peer.served = [⟨0, first, none, first⟩] ∧ peer.unread 0 = replyTo 0 first ∧
      transport'.stream = some 1 ∧ peer.Solicited 1 ∧
      (transport'.exchange ⟨1⟩ 6 [0, 5, 0, 7] 5).Runs history (.ok [6, 0, 5, 0, 7], transport'') ∧
      (Responder.environment (some 5)).Allows (watch, peer) history (watch', peer') ∧
      ∃ stream reply, peer'.served = peer.served ++ [⟨stream, second, some 5, reply⟩] ∧
        Frame.Tcp.decode reply 5 = .ok [6, 0, 5, 0, 7] := by
  intro transport first second
  have hof : Transport.of (fun _ => some transport.host) transport.settings = .ok transport := rfl
  let due : Instant := transport.settings.reconnectInterval
  let opens (time : Instant) (stream : Handle) : List Action.Step :=
    [⟨.now, time⟩, ⟨.now, time⟩, ⟨.connect transport.settings transport.host, .ok stream⟩,
      ⟨.report (.connected transport.address), ()⟩]
  let sending : List Action.Step :=
    opens 0 0 ++ [⟨.transmit 0 first transport.settings.timeout, .ok ()⟩]
  let closing : List Action.Step :=
    [⟨.close 0, ()⟩, ⟨.report (.disconnected transport.address), ()⟩]
  let exchanging : List Action.Step :=
    [⟨.transmit 1 second transport.settings.timeout, .ok ()⟩,
      ⟨.receive 1 Frame.maxLength transport.settings.timeout, .ok second⟩]
  let sender : Transport := { transport with
    stream := some 0, connection := .connected, lastAttempt := some 0, attempts := 1
    health := ⟨.on, none⟩ }
  let opened : Transport := { sender with stream := some 1, lastAttempt := some due, attempts := 2 }
  have hsends : ((Use.send ⟨1⟩ 6 [0, 4, 0, 9]).on transport).Runs sending (.ok [], sender) :=
    .ask (.ask (.ask (.ask (.ask (.done _)))))
  have hcloses : (Use.disconnect.on sender).Runs closing (.ok [], sender.dropped) :=
    .ask (.ask (.done _))
  have hopens : (Use.connect.on sender.dropped).Runs (opens due 1) (.ok [], opened) :=
    .ask (.ask (.ask (.ask (.done _))))
  have hexchanges : (opened.exchange ⟨1⟩ 6 [0, 5, 0, 7] 5).Runs exchanging
      (.ok [6, 0, 5, 0, 7], _) := .ask (.ask (.done _))
  have hopening : ∀ expected (watch : Watch) (peer : Responder) stream rest last,
      stream ∉ peer.streams →
      (Responder.environment expected).Allows (⟨watch.clock, watch.clock,
        watch.traffic ++ [.attempt watch.clock (.ok stream)]⟩,
        { peer with streams := stream :: peer.streams }) rest last →
      (Responder.environment expected).Allows (watch, peer) (opens watch.clock stream ++ rest)
        last := by
    intro expected watch peer stream rest last hnew hrest
    refine .cons (environment_unseen rfl rfl) (.cons (environment_unseen rfl rfl) ?_)
    exact .cons (environment_seen rfl trivial ⟨hnew, rfl⟩)
      (.cons (environment_unseen rfl trivial) hrest)
  let sent : Responder := { Responder.start with streams := [0] }.serve ⟨0, first, none, first⟩
  let ready : Responder := { sent with streams := [1, 0] }
  let asked : Responder := ready.serve ⟨1, second, some 5, second⟩
  let read : Responder := { asked with unread := Function.update asked.unread 1 [] }
  have hsent : Responder.Answers none { Responder.start with streams := [0] }
      (.write 0 first (.ok ())) sent :=
    .inl ⟨first, by decide, by decide, by decide, by decide, rfl⟩
  have hasked : ready.Answers (some 5) (.write 1 second (.ok ())) asked :=
    .inl ⟨second, by decide, by decide, by decide, by decide, rfl⟩
  have hread : asked.Answers (some 5) (.read 1 (.ok second)) read :=
    .inr ⟨replyTo 1 second, [], rfl, by decide, rfl, by decide, fun _ _ _ _ => nofun, rfl⟩
  let written : Watch := ⟨0, 0, [.attempt 0 (.ok 0), .write 0 first (.ok ())]⟩
  let closed : Watch := ⟨0, 0, written.traffic ++ [.close 0]⟩
  let before : Watch := ⟨due, due, closed.traffic ++ [.attempt due (.ok 1)]⟩
  let after : Watch :=
    ⟨due, due, before.traffic ++ [.write 1 second (.ok ())] ++ [.read 1 (.ok second)]⟩
  have hsending : (Responder.environment none).Allows (⟨0, 0, []⟩, Responder.start) sending
      (written, sent) :=
    hopening none ⟨0, 0, []⟩ Responder.start 0 _ _ List.not_mem_nil
      (.cons (environment_seen rfl trivial hsent) (.nil _))
  have hclosing : (Responder.environment none).Allows (written, sent) closing (closed, sent) :=
    .cons (environment_seen rfl trivial rfl) (.cons (environment_unseen rfl trivial) (.nil _))
  have hwaits : Responder.Idles (closed, sent) (⟨due, 0, closed.traffic⟩, sent) :=
    ⟨⟨Nat.zero_le due, rfl⟩, rfl⟩
  have hconnecting : (Responder.environment none).Allows (⟨due, 0, closed.traffic⟩, sent)
      (opens due 1) (before, ready) :=
    hopening none ⟨due, 0, closed.traffic⟩ sent 1 [] _ (by decide) (.nil _)
  have hexchanging : (Responder.environment (some 5)).Allows (before, ready) exchanging
      (after, read) :=
    .cons (environment_seen rfl trivial hasked)
      (.cons (environment_seen rfl trivial hread) (.nil _))
  have hsession : Session (fun use => Responder.environment use.expected?) Responder.Idles transport
      (⟨0, 0, []⟩, Responder.start) opened (before, ready) :=
    .use (.idle (.use (.use .start hsends hsending) hcloses hclosing) hwaits) hopens hconnecting
  have hsolicited : ready.Solicited 1 := by
    intro request hmem hstream
    cases List.mem_singleton.mp hmem
    cases hstream
  refine ⟨opened, before, ready, exchanging, _, after, read, hsession, rfl, rfl, rfl, hsolicited,
    hexchanges, hexchanging, ?_⟩
  have hstreams : ∀ stream, opened.stream = some stream → ready.Solicited stream := by
    intro stream hstream
    cases hstream
    exact hsolicited
  obtain ⟨frame, stream, reply, hencode, hserved, hresult⟩ :=
    Session.replies_own hof rfl hsession hstreams hexchanges hexchanging trivial
  cases hencode
  exact ⟨stream, reply, hserved, hresult.symm⟩

/-- A register is written without waiting for the reply, and then another one by an exchange: the
exchange is answered by the reply to the first. -/
theorem Session.takes_reply_of_send :
    let transport : Transport :=
      { settings := { host := "plc", port := 502 }, host := .v4 [10, 0, 0, 7] }
    ∃ transport' watch peer history transport'' watch' peer',
      Session (fun use => Responder.environment use.expected?) Responder.Idles transport
        (⟨0, 0, []⟩, Responder.start) transport' (watch, peer) ∧
      (transport'.exchange ⟨1⟩ 6 [0, 5, 0, 7] 5).Runs history (.ok [6, 0, 4, 0, 9], transport'') ∧
      (Responder.environment (some 5)).Allows (watch, peer) history (watch', peer') ∧
      ∃ stream frame reply, peer'.served = peer.served ++ [⟨stream, frame, some 5, reply⟩] ∧
        Frame.Tcp.encode ⟨1⟩ 6 [0, 5, 0, 7] = .ok frame ∧
        Frame.Tcp.decode reply 5 = .ok [6, 0, 5, 0, 7] := by
  intro transport
  -- the reply to a write of one register repeats the request
  let first : Bytes := [1, 0, 0, 0, 0, 6, 1, 6, 0, 4, 0, 9]
  let second : Bytes := [1, 0, 0, 0, 0, 6, 1, 6, 0, 5, 0, 7]
  let sending : List Action.Step :=
    [⟨.now, (0 : Nat)⟩, ⟨.now, (0 : Nat)⟩, ⟨.connect transport.settings transport.host, .ok 0⟩,
      ⟨.report (.connected transport.address), ()⟩,
      ⟨.transmit 0 first transport.settings.timeout, .ok ()⟩]
  let exchanging : List Action.Step :=
    [⟨.transmit 0 second transport.settings.timeout, .ok ()⟩,
      ⟨.receive 0 Frame.maxLength transport.settings.timeout, .ok first⟩]
  let opened : Responder := { Responder.start with streams := [0] }
  let sent : Responder := opened.serve ⟨0, first, none, first⟩
  let asked : Responder := sent.serve ⟨0, second, some 5, second⟩
  let sender : Transport := { transport with
    stream := some 0, connection := .connected, lastAttempt := some 0, attempts := 1
    health := ⟨.on, none⟩ }
  have hsends : ((Use.send ⟨1⟩ 6 [0, 4, 0, 9]).on transport).Runs sending (.ok [], sender) :=
    .ask (.ask (.ask (.ask (.ask (.done _)))))
  have hexchanges : (sender.exchange ⟨1⟩ 6 [0, 5, 0, 7] 5).Runs exchanging
      (.ok [6, 0, 4, 0, 9], _) := .ask (.ask (.done _))
  have hsent : opened.Answers none (.write 0 first (.ok ())) sent :=
    .inl ⟨first, by decide, by decide, by decide, by decide, rfl⟩
  have hasked : sent.Answers (some 5) (.write 0 second (.ok ())) asked :=
    .inl ⟨second, by decide, by decide, by decide, by decide, rfl⟩
  let read : Responder := { asked with unread := Function.update asked.unread 0 (replyTo 1 second) }
  let before : Watch := ⟨0, 0, [.attempt 0 (.ok 0), .write 0 first (.ok ())]⟩
  let after : Watch := ⟨0, 0, before.traffic ++ [.write 0 second (.ok ()), .read 0 (.ok first)]⟩
  have hread : asked.Answers (some 5) (.read 0 (.ok first)) read :=
    .inr ⟨replyTo 0 first, replyTo 1 second, rfl, by decide, rfl, by decide, by decide, rfl⟩
  have hsending : (Responder.environment none).Allows (⟨0, 0, []⟩, Responder.start) sending
      (before, sent) := by
    refine .cons (environment_unseen rfl rfl) (.cons (environment_unseen rfl rfl) ?_)
    refine .cons (environment_seen rfl trivial ⟨List.not_mem_nil, rfl⟩) ?_
    refine .cons (environment_unseen rfl trivial) ?_
    exact .cons (environment_seen rfl trivial hsent) (.nil _)
  have hexchanging : (Responder.environment (some 5)).Allows (before, sent) exchanging
      (after, read) :=
    .cons (environment_seen rfl trivial hasked)
      (.cons (environment_seen rfl trivial hread) (.nil _))
  exact ⟨sender, before, sent, exchanging, _, after, read, .use .start hsends hsending, hexchanges,
    hexchanging, 0, second, second, rfl, rfl, rfl⟩

end ModbusMaster.Tcp
