import Mathlib.Logic.Function.Basic
import Mathlib.Logic.Relation
import ModbusMaster.Proofs.Tcp.Session

/-!
A peer that replies at most once to every request of an exchange and never to what was only sent.
Its replies cross the network in any segments and at any time, and it may hang up whenever it
likes. Every byte on its way carries the number of the request it belongs to, which the transport
does not see.
-/

namespace ModbusMaster.Tcp

/-- A frame that was written on a stream. -/
structure Written where
  stream : Handle
  frame : Bytes
  /-- How many bytes a reply has from the function echo on, or nothing if none is expected. -/
  expected : Option Nat
  deriving DecidableEq

/-- A byte of the reply to the request with a number. -/
abbrev ReplyByte := Nat × UInt8

/-- The bytes of the reply to a request. -/
def replyTo (number : Nat) (reply : Bytes) : List ReplyByte :=
  reply.map fun byte => (number, byte)

@[simp] theorem replyTo_nil (number : Nat) : replyTo number [] = [] := rfl

@[simp] theorem map_snd_replyTo (number : Nat) (reply : Bytes) :
    (replyTo number reply).map Prod.snd = reply := by
  simp [replyTo, Function.comp_def]

/-- A whole reply: one with `expected` bytes from the function echo on, or a refusal. -/
def IsReply (expected : Nat) (reply : Bytes) : Prop :=
  (∃ echo, reply[7]? = some echo ∧ echo < 0x80 ∧ reply.length = 7 + expected) ∨
    ∃ echo, reply[7]? = some echo ∧ 0x80 ≤ echo ∧ reply.length = 9

/-- What the network and the peer hold. -/
structure Network where
  /-- The streams that were opened. -/
  streams : List Handle
  /-- The frames that reached the peer whole, in the order of their numbers. -/
  requests : List Written
  /-- The replies the peer has sent, with the numbers of the requests they answer. -/
  replies : List (Nat × Bytes)
  underWay : Handle → List ReplyByte
  arrived : Handle → List ReplyByte
  /-- The streams on which the peer has hung up. -/
  ended : List Handle
  /-- What the reads have returned. -/
  reads : List (List ReplyByte)

namespace Network

/-- Before the first use. -/
def start : Network where
  streams := []
  requests := []
  replies := []
  underWay := fun _ => []
  arrived := fun _ => []
  ended := []
  reads := []

/-- Whether a request was replied to. -/
def Replied (network : Network) (number : Nat) : Prop :=
  ∃ reply, (number, reply) ∈ network.replies

/-- What the peer and the network do by themselves. -/
inductive Moves (network : Network) : Network → Prop where
  | reply {number expected : Nat} {stream : Handle} {frame reply : Bytes}
      (request : network.requests[number]? = some ⟨stream, frame, some expected⟩)
      (unreplied : ¬ network.Replied number) (isReply : IsReply expected reply) :
      Moves network { network with
        replies := network.replies ++ [(number, reply)]
        underWay := Function.update network.underWay stream
          (network.underWay stream ++ replyTo number reply) }
  | deliver {stream : Handle} {segment rest : List ReplyByte}
      (underWay : network.underWay stream = segment ++ rest) (segment_ne : segment ≠ []) :
      Moves network { network with
        arrived := Function.update network.arrived stream (network.arrived stream ++ segment)
        underWay := Function.update network.underWay stream rest }
  | hangUp (stream : Handle) : Moves network { network with ended := stream :: network.ended }

/-- Any time passes. -/
abbrev Passes : Network → Network → Prop :=
  Relation.ReflTransGen Moves

/-- How a call can be answered. A connection gets a stream of its own; a write that fails may have
reached the peer or not; a read returns some of what has arrived, nothing only when the peer has
hung up. A panic is not answered. -/
def Answers (expected : Option Nat) (network : Network) : Action.Step → Network → Prop
  | ⟨.connect _ _, outcome⟩, after =>
      match outcome with
      | .ok stream => stream ∉ network.streams ∧
          after = { network with streams := stream :: network.streams }
      | .error _ => after = network
  | ⟨.transmit stream frame _, outcome⟩, after =>
      let received := { network with requests := network.requests ++ [⟨stream, frame, expected⟩] }
      match outcome with
      | .ok _ => after = received
      | .error _ => after = network ∨ after = received
  | ⟨.receive stream count _, outcome⟩, after =>
      match outcome with
      | .ok raw => ∃ segment rest, network.arrived stream = segment ++ rest ∧
          raw = segment.map Prod.snd ∧ segment.length ≤ count ∧
          (segment = [] → stream ∈ network.ended) ∧
          after = { network with
            arrived := Function.update network.arrived stream rest
            reads := network.reads ++ [segment] }
      | .error _ => after = network
  | ⟨.panic _, _⟩, _ => False
  | _, after => after = network

/-- The network answers a call after a while, where a frame written asks for a reply or not. -/
def environment (expected : Option Nat) : Environment Network := fun network step after =>
  ∃ middle, network.Passes middle ∧ middle.Answers expected step after

theorem not_answered_panic {expected : Option Nat} {network : Network} {cause : Panic}
    (answer : Unit) (after : Network) :
    ¬ environment expected network ⟨.panic cause, answer⟩ after :=
  fun ⟨_, _, hfalse⟩ => hfalse

/-! ### What lasts while time passes -/

/-- Nothing is on its way on a stream, and nothing will be before another request. -/
structure Quiet (network : Network) (stream : Handle) : Prop where
  arrived : network.arrived stream = []
  underWay : network.underWay stream = []
  replied : ∀ number frame expected,
    network.requests[number]? = some ⟨stream, frame, some expected⟩ → network.Replied number

/-- The streams that were not opened yet are unused. -/
def Fresh (network : Network) : Prop :=
  ∀ stream ∉ network.streams, network.Quiet stream ∧
    ∀ request ∈ network.requests, request.stream ≠ stream

/-- On a stream only the reply to the request with a number is outstanding, or what is left of it
after `taken` was read. -/
structure Awaits (network : Network) (stream : Handle) (number expected : Nat) (taken : Bytes) :
    Prop where
  request : ∃ frame, network.requests[number]? = some ⟨stream, frame, some expected⟩
  others : ∀ other frame expected, other ≠ number →
    network.requests[other]? = some ⟨stream, frame, some expected⟩ → network.Replied other
  outstanding :
    (taken = [] ∧ network.arrived stream = [] ∧ network.underWay stream = []) ∨
      ∃ reply, (number, reply) ∈ network.replies ∧ IsReply expected reply ∧
        replyTo number taken ++ network.arrived stream ++ network.underWay stream =
          replyTo number reply

variable {network after : Network} {stream : Handle}

theorem Moves.kept (h : network.Moves after) :
    after.streams = network.streams ∧ after.requests = network.requests ∧
      after.reads = network.reads ∧ ∀ reply ∈ network.replies, reply ∈ after.replies := by
  cases h with
  | reply => exact ⟨rfl, rfl, rfl, fun _ hmem => List.mem_append_left _ hmem⟩
  | deliver => exact ⟨rfl, rfl, rfl, fun _ hmem => hmem⟩
  | hangUp => exact ⟨rfl, rfl, rfl, fun _ hmem => hmem⟩

theorem Moves.replied {number : Nat} (h : network.Moves after) (hreplied : network.Replied number) :
    after.Replied number :=
  hreplied.imp fun _ hmem => h.kept.2.2.2 _ hmem

/-- On a quiet stream nothing can be sent or delivered. -/
theorem Moves.quiet (h : network.Moves after) (hquiet : network.Quiet stream) :
    after.Quiet stream := by
  have hreplied : ∀ number frame expected,
      after.requests[number]? = some ⟨stream, frame, some expected⟩ → after.Replied number := by
    intro number frame expected hrequest
    rw [h.kept.2.1] at hrequest
    exact h.replied (hquiet.replied number frame expected hrequest)
  cases h with
  | reply request unreplied isReply =>
    rename_i number expected other frame reply
    -- every request on the quiet stream was replied to, so this reply goes to another stream
    have hne : stream ≠ other := by
      rintro rfl
      exact unreplied (hquiet.replied _ _ _ request)
    exact ⟨hquiet.arrived, (Function.update_of_ne hne _ _).trans hquiet.underWay, hreplied⟩
  | deliver underWay segment_ne =>
    rename_i other segment rest
    -- and nothing is on its way on the quiet stream that could be delivered
    have hne : stream ≠ other := by
      rintro rfl
      rw [hquiet.underWay] at underWay
      exact segment_ne (List.append_eq_nil_iff.mp underWay.symm).1
    exact ⟨(Function.update_of_ne hne _ _).trans hquiet.arrived,
      (Function.update_of_ne hne _ _).trans hquiet.underWay, hreplied⟩
  | hangUp => exact ⟨hquiet.arrived, hquiet.underWay, hreplied⟩

theorem Moves.fresh (h : network.Moves after) (hfresh : network.Fresh) : after.Fresh := by
  intro stream hstream
  rw [h.kept.1] at hstream
  obtain ⟨hquiet, hrequests⟩ := hfresh stream hstream
  refine ⟨h.quiet hquiet, ?_⟩
  rw [h.kept.2.1]
  exact hrequests

/-- Only the reply that is awaited can be sent, and what is delivered is a part of it. -/
theorem Moves.awaits {number expected : Nat} {taken : Bytes} (h : network.Moves after)
    (hawaits : network.Awaits stream number expected taken) :
    after.Awaits stream number expected taken := by
  have hrequest : ∃ frame, after.requests[number]? = some ⟨stream, frame, some expected⟩ := by
    rw [h.kept.2.1]
    exact hawaits.request
  have hothers : ∀ other frame expected, other ≠ number →
      after.requests[other]? = some ⟨stream, frame, some expected⟩ → after.Replied other := by
    intro other frame expected hne hrequest
    rw [h.kept.2.1] at hrequest
    exact h.replied (hawaits.others other frame expected hne hrequest)
  refine ⟨hrequest, hothers, ?_⟩
  cases h with
  | reply request unreplied isReply =>
    rename_i replied expected' other frame reply
    by_cases hstream : stream = other
    · subst hstream
      -- an outstanding reply on this stream is the awaited one, and it was not sent before
      have hnumber : replied = number := by
        by_contra hne
        exact unreplied (hawaits.others _ _ _ hne request)
      subst hnumber
      obtain ⟨frame', hframe⟩ := hawaits.request
      rw [request] at hframe
      cases hframe
      rcases hawaits.outstanding with ⟨htaken, harrived, hunderWay⟩ | ⟨earlier, hmem, -⟩
      · refine .inr ⟨reply, List.mem_append_right _ (List.mem_singleton_self _), isReply, ?_⟩
        dsimp only
        rw [Function.update_self, htaken, harrived, hunderWay]
        rfl
      · exact absurd ⟨earlier, hmem⟩ unreplied
    · dsimp only
      rw [Function.update_of_ne hstream]
      exact hawaits.outstanding.imp_right fun ⟨earlier, hmem, hrest⟩ =>
        ⟨earlier, List.mem_append_left _ hmem, hrest⟩
  | deliver underWay segment_ne =>
    rename_i other segment rest
    dsimp only
    by_cases hstream : stream = other
    · subst hstream
      rw [Function.update_self, Function.update_self]
      rcases hawaits.outstanding with ⟨-, -, hunderWay⟩ | ⟨reply, hmem, hreply, hsplit⟩
      · rw [hunderWay] at underWay
        exact absurd (List.append_eq_nil_iff.mp underWay.symm).1 segment_ne
      · refine .inr ⟨reply, hmem, hreply, ?_⟩
        rw [← hsplit, underWay]
        simp only [List.append_assoc]
    · rw [Function.update_of_ne hstream, Function.update_of_ne hstream]
      exact hawaits.outstanding
  | hangUp => exact hawaits.outstanding

/-- What every move keeps lasts while time passes. -/
theorem Passes.lasts {keeps : Network → Prop} (h : network.Passes after)
    (hmoves : ∀ network after, network.Moves after → keeps network → keeps after)
    (hkeeps : keeps network) : keeps after := by
  induction h with
  | refl => exact hkeeps
  | tail _ move ih => exact hmoves _ _ move ih

end Network

/-- The reply that a use asks for. -/
def Use.expected? : Use → Option Nat
  | .exchange _ _ _ length => some length
  | _ => none

end ModbusMaster.Tcp
