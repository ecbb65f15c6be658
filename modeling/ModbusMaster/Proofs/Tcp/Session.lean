import ModbusMaster.Proofs.Action.Environment
import ModbusMaster.Tcp.Exchange

/-!
Sessions: what callers do with one TCP transport, one use after the other. `Session.invariant`
carries a property of transport and environment through a whole session.
-/

namespace ModbusMaster.Tcp

/-- A transport after its stream was closed. -/
def Transport.dropped (transport : Transport) : Transport :=
  { transport with stream := none, connection := .disconnected }

theorem Transport.of_eq_ok {resolve : String → Option Host} {settings : Settings}
    {transport : Transport} (hof : Transport.of resolve settings = .ok transport) :
    ∃ host, transport = {
      settings := if settings.port = 0 then { settings with port := defaultPort } else settings
      host } := by
  unfold Transport.of at hof
  generalize (if settings.port = 0 then { settings with port := defaultPort } else settings) =
    defaulted at hof
  dsimp only at hof
  split at hof
  next => cases hof
  next =>
    split at hof
    next => cases hof
    next =>
      split at hof
      next => cases hof
      next host hresolve =>
        cases hof
        exact ⟨host, rfl⟩

/-- The errors that calls on a connection end in. -/
inductive OfMedium : RequestError → Prop where
  | io (kind : IoError) : OfMedium (.io kind)
  | responseTimeout : OfMedium .responseTimeout

theorem Transport.ofMedium_connectError (interruption : Interruption) :
    OfMedium (connectError interruption) := by
  cases interruption with
  | elapsed => exact .io .timedOut
  | failed kind => cases kind <;> constructor

theorem Transport.ofMedium_exchangeError (interruption : Interruption) :
    OfMedium (exchangeError interruption) := by
  cases interruption with
  | elapsed => exact .responseTimeout
  | failed kind => cases kind <;> constructor

/-- What a caller does with a transport. -/
inductive Use where
  | connect
  | disconnect
  | send (unit : UnitId) (function : UInt8) (payload : Bytes)
  | exchange (unit : UnitId) (function : UInt8) (payload : Bytes) (length : Nat)
  deriving DecidableEq

namespace Use

/-- Makes use of a transport. Where nothing is read, success is answered by no bytes. -/
def on (use : Use) (transport : Transport) : Action (Except RequestError Bytes × Transport) :=
  match use with
  | connect => do
      let (result, transport) ← transport.connect
      return (result.map fun _ => [], transport)
  | disconnect => do
      let transport ← transport.disconnect
      return (.ok [], transport)
  | send unit function payload => do
      let (result, transport) ← transport.send unit function payload
      return (result.map fun _ => [], transport)
  | exchange unit function payload length => transport.exchange unit function payload length

/-- Whether a use calls for a connection: one that writes does if its frame can be encoded. -/
def needsConnection : Use → Bool
  | connect => true
  | disconnect => false
  | send unit function payload | exchange unit function payload _ =>
      match Frame.Tcp.encode unit function payload with
      | .ok _ => true
      | .error _ => false

end Use

variable {σ : Type}

section Reports

variable {env : Environment σ} {keeps : σ → Prop} {state : σ} {transport : Transport}

/-- A trace of a frame keeps what every report keeps. -/
theorem Transport.reportFrame_keeps {direction : Direction} {frame : Bytes}
    (hreport : ∀ event state, keeps state →
      (Action.report event).Ensures env (fun _ after => keeps after) state) (h : keeps state) :
    (transport.reportFrame direction frame).Ensures env (fun _ after => keeps after) state := by
  unfold reportFrame
  dsimp only
  split
  · exact h
  · exact hreport _ _ h

/-- A trace of bytes keeps what every report keeps. -/
theorem Transport.reportBytes_keeps {direction : Direction} {data : Bytes}
    (hreport : ∀ event state, keeps state →
      (Action.report event).Ensures env (fun _ after => keeps after) state) (h : keeps state) :
    (transport.reportBytes direction data).Ensures env (fun _ after => keeps after) state := by
  unfold reportBytes
  dsimp only
  split
  · exact h
  · exact hreport _ _ h

end Reports

/-- A transport is put to use again and again. The environment may treat each use in its own way
and may change while nobody uses the transport. -/
inductive Session (env : Use → Environment σ) (idle : σ → σ → Prop) (transport : Transport)
    (state : σ) : Transport → σ → Prop where
  | start : Session env idle transport state transport state
  | idle {transport' : Transport} {state' after : σ}
      (session : Session env idle transport state transport' state')
      (passes : idle state' after) : Session env idle transport state transport' after
  | use {transport' transport'' : Transport} {state' after : σ} {use : Use}
      {history : List Action.Step} {result : Except RequestError Bytes}
      (session : Session env idle transport state transport' state')
      (runs : (use.on transport').Runs history (result, transport''))
      (allows : (env use).Allows state' history after) :
      Session env idle transport state transport'' after

/-- What holds at the start, lasts while nobody uses the transport, and is kept by every use holds
throughout a session. -/
theorem Session.invariant {env : Use → Environment σ} {idle : σ → σ → Prop}
    {transport transport' : Transport} {state state' : σ} (inv : Transport → σ → Prop)
    (h : Session env idle transport state transport' state') (hstart : inv transport state)
    (hidle : ∀ transport state after, inv transport state → idle state after → inv transport after)
    (huse : ∀ (use : Use) transport state, inv transport state →
      (use.on transport).Ensures (env use) (fun outcome after => inv outcome.2 after) state) :
    inv transport' state' := by
  induction h with
  | start => exact hstart
  | idle session passes ih => exact hidle _ _ _ ih passes
  | use session runs allows ih => exact Action.ensures_iff.mp (huse _ _ _ ih) _ _ _ runs allows

end ModbusMaster.Tcp
