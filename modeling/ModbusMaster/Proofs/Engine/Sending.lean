import ModbusMaster.Proofs.Engine.Allowance
import ModbusMaster.Retry

/-!
Nothing succeeds that was not asked for. On a medium that takes no bytes every exchange and every
send fails, on either transport, whatever else is answered. So whoever has a result has put a
request on the medium (`Action.puts_ne_nil`).
-/

namespace ModbusMaster

/-- Any answers, as long as nothing is put on the medium. -/
def unsent : Environment Unit := fun _ step _ => step.call.put? = none

/-- An outcome that is no success. -/
def Failed {α : Type} (outcome : Except RequestError α) : Prop :=
  ∃ error, outcome = .error error

namespace Action

variable {α : Type} {history : List Step}

theorem allows_unsent (h : puts history = []) : unsent.Allows () history () := by
  induction history with
  | nil => exact .nil ()
  | cons step rest ih =>
    cases hput : step.call.put? with
    | none =>
      rw [Allowance.puts_cons_of_keep hput] at h
      exact .cons hput (ih h)
    | some bytes =>
      rw [Allowance.puts_cons_of_put hput] at h
      cases h

/-- A run with a result has put something on the medium if no other run has one. -/
theorem puts_ne_nil {action : Action (Except RequestError α)} {value : α}
    (h : action.Ensures unsent (fun outcome _ => Failed outcome) ())
    (hruns : action.Runs history (.ok value)) : puts history ≠ [] := by
  intro hnone
  obtain ⟨error, herror⟩ := ensures_iff.mp h _ _ _ hruns (allows_unsent hnone)
  cases herror

end Action

namespace Serial.Transport

variable {transport : Transport} {frame : Bytes} {unit : UnitId} {function : UInt8}
  {payload : Bytes}

theorem writeFrame_unsent :
    (transport.writeFrame frame).Ensures unsent (fun outcome _ => Failed outcome) () := by
  refine Action.ensures_perform_bind.mpr fun flushed _ _ => ?_
  cases flushed with
  | error kind => exact ⟨_, rfl⟩
  | ok _ =>
    refine Action.ensures_any_bind fun _ _ => Action.ensures_any_bind fun _ _ => ?_
    exact Action.ensures_perform_bind.mpr fun _ _ hput => by cases hput

theorem exchangeFrame_unsent (length : Nat) :
    (transport.exchangeFrame frame length).Ensures unsent
      (fun outcome _ => Failed outcome.1) () := by
  refine writeFrame_unsent.bind fun written _ hwritten => ?_
  obtain ⟨error, rfl⟩ := hwritten
  exact ⟨error, rfl⟩

theorem exchange_unsent (length : Nat) :
    (transport.exchange unit function payload length).Ensures unsent
      (fun outcome _ => Failed outcome.1) () := by
  unfold exchange
  split
  next cause _ => exact ⟨_, rfl⟩
  next frame _ =>
    refine Action.ensures_perform_bind.mpr fun _ _ _ => ?_
    refine (exchangeFrame_unsent length).bind fun outcome _ hfailed => ?_
    exact Action.ensures_any_bind fun _ _ => Action.ensures_any_bind fun _ _ => hfailed

theorem send_unsent :
    (transport.send unit function payload).Ensures unsent
      (fun outcome _ => Failed outcome.1) () := by
  unfold send
  split
  next cause _ => exact ⟨_, rfl⟩
  next frame _ =>
    refine Action.ensures_perform_bind.mpr fun _ _ _ => ?_
    refine writeFrame_unsent.bind fun outcome _ hfailed => ?_
    exact Action.ensures_any_bind fun _ _ => Action.ensures_any_bind fun _ _ => hfailed

end Serial.Transport

namespace Tcp.Transport

variable {transport : Transport} {frame : Bytes} {unit : UnitId} {function : UInt8}
  {payload : Bytes}

theorem writeFrame_unsent :
    (transport.writeFrame frame).Ensures unsent (fun outcome _ => Failed outcome.1) () := by
  unfold writeFrame
  split
  next => exact ⟨_, rfl⟩
  next stream _ =>
    refine Action.ensures_any_bind fun _ _ => Action.ensures_any_bind fun _ _ => ?_
    exact Action.ensures_perform_bind.mpr fun _ _ hput => by cases hput

theorem attempt_unsent :
    (transport.attempt frame).Ensures unsent (fun outcome _ => Failed outcome.1) () := by
  refine Action.ensures_any_bind fun connected _ => ?_
  obtain ⟨_ | _, net⟩ := connected
  case error error => exact ⟨error, rfl⟩
  case ok _ =>
    refine writeFrame_unsent.bind fun written _ hwritten => ?_
    obtain ⟨_, net⟩ := written
    obtain ⟨error, rfl⟩ := hwritten
    exact ⟨error, rfl⟩

theorem exchangeFrame_unsent (length : Nat) :
    (transport.exchangeFrame frame length).Ensures unsent
      (fun outcome _ => Failed outcome.1) () := by
  refine attempt_unsent.bind fun outcome _ hfailed => ?_
  obtain ⟨_, net⟩ := outcome
  obtain ⟨error, rfl⟩ := hfailed
  exact ⟨error, rfl⟩

theorem exchange_unsent (length : Nat) :
    (transport.exchange unit function payload length).Ensures unsent
      (fun outcome _ => Failed outcome.1) () := by
  unfold exchange
  split
  next cause _ => exact ⟨_, rfl⟩
  next frame _ => exact (exchangeFrame_unsent length).bind fun outcome _ hfailed => hfailed

theorem send_unsent :
    (transport.send unit function payload).Ensures unsent
      (fun outcome _ => Failed outcome.1) () := by
  unfold send
  split
  next cause _ => exact ⟨_, rfl⟩
  next frame _ =>
    refine Action.ensures_any_bind fun connected _ => ?_
    obtain ⟨_ | _, net⟩ := connected
    case error error => exact ⟨error, rfl⟩
    case ok _ => exact writeFrame_unsent.bind fun outcome _ hfailed => hfailed

end Tcp.Transport

namespace Transport

variable {transport : Transport} {unit : UnitId} {function : UInt8} {payload : Bytes}

theorem exchange_unsent (length : Nat) :
    (transport.exchange unit function payload length).Ensures unsent
      (fun outcome _ => Failed outcome.1) () := by
  cases transport with
  | rtu serial => exact (serial.exchange_unsent length).bind fun _ _ hfailed => hfailed
  | tcp net => exact (net.exchange_unsent length).bind fun _ _ hfailed => hfailed

theorem send_unsent :
    (transport.send unit function payload).Ensures unsent
      (fun outcome _ => Failed outcome.1) () := by
  cases transport with
  | rtu serial => exact serial.send_unsent.bind fun _ _ hfailed => hfailed
  | tcp net => exact net.send_unsent.bind fun _ _ hfailed => hfailed

end Transport

namespace Engine

variable {α : Type} {engine : Engine}

theorem use_unsent {work : Transport → Action (Except RequestError α × Transport)}
    (h : ∀ transport, (work transport).Ensures unsent (fun outcome _ => Failed outcome.1) ()) :
    (engine.use work).Ensures unsent (fun outcome _ => Failed outcome) () := by
  refine Action.ensures_perform_bind.mpr fun transport _ _ => ?_
  refine (h transport).bind fun outcome _ hfailed => ?_
  exact Action.ensures_any_bind fun _ _ => hfailed

/-- On a medium that takes nothing no operation succeeds. -/
theorem perform_unsent (operation : Operation) :
    (engine.perform operation).Ensures unsent (fun outcome _ => Failed outcome) () := by
  unfold perform
  split
  next cause _ => exact ⟨_, rfl⟩
  next request _ =>
    refine (use_unsent fun transport => transport.exchange_unsent _).bind fun outcome _ h => ?_
    obtain ⟨error, rfl⟩ := h
    exact ⟨error, rfl⟩
  next function payload _ =>
    refine (use_unsent fun transport => transport.send_unsent).bind fun outcome _ h => ?_
    obtain ⟨error, rfl⟩ := h
    exact ⟨error, rfl⟩

end Engine

/-- More attempts do not help. -/
theorem RetryPolicy.attempts_unsent {α : Type} {attempt : Action (Except RequestError α)}
    (h : attempt.Ensures unsent (fun outcome _ => Failed outcome) ()) (pause : Duration)
    (left : Nat) :
    (attempts pause attempt left).Ensures unsent (fun outcome _ => Failed outcome) () := by
  induction left with
  | zero => exact h
  | succ left ih =>
    refine h.bind fun outcome _ hfailed => ?_
    obtain ⟨error, rfl⟩ := hfailed
    dsimp only
    split
    next =>
      refine Action.ensures_any_bind fun _ _ => ?_
      split
      next => exact Action.ensures_any_bind fun _ _ => ih
      next => exact ih
    next => exact ⟨error, rfl⟩

end ModbusMaster
