import ModbusMaster.Cache.Polling
import ModbusMaster.Device
import ModbusMaster.Proofs.Engine.Outcome

/-!
Turns with a serial transport. `Stage` says where a caller is who may take the transport of an
engine and, while it has it, the bus; `Stage.Next` says which calls are in order there. Whatever
the lines answer, engines, caches, devices and polling tasks make their calls in this order.
-/

namespace ModbusMaster

/-- What can be done to a serial line. -/
inductive Stroke where
  | flush
  | write
  | read
  deriving DecidableEq

/-- The strokes of an exchange that does not fail. -/
def Stroke.order : List Stroke := [.flush, .write, .read, .read]

namespace Call

/-- The line that a call concerns, and what it does to it. -/
def stroke? : Call → Option (Handle × Stroke)
  | .flush line => some (line, .flush)
  | .write line _ => some (line, .write)
  | .read line _ => some (line, .read)
  | _ => none

/-- A call for a bus or for the transport of an engine. -/
def locks : Call → Bool
  | .acquireBus _ | .releaseBus _ | .acquireTransport _ | .releaseTransport .. => true
  | _ => false

/-- A call that gives a transport back. -/
def EndsTurn : Call → Prop
  | .releaseTransport .. => True
  | _ => False

/-- The engine whose transport a call takes. -/
def engine? : Call → Option Handle
  | .acquireTransport engine => some engine
  | _ => none

/-- The bus that a call takes. -/
def bus? : Call → Option Handle
  | .acquireBus bus => some bus
  | _ => none

/-- A call that concerns neither a serial line nor what callers take turns with. -/
def Aside (call : Call) : Prop :=
  call.stroke? = none ∧ call.locks = false

variable {call : Call}

theorem locks_of_stroke {stroke : Handle × Stroke} (h : call.stroke? = some stroke) :
    call.locks = false := by
  cases call with
  | flush | write | read => rfl
  | _ => cases h

theorem EndsTurn.locks (h : call.EndsTurn) : call.locks = true := by
  cases call with
  | releaseTransport => rfl
  | _ => exact h.elim

/-- Calls for locks and strokes are not made aside. -/
theorem not_aside_of_stroke {stroke : Handle × Stroke} (h : call.stroke? = some stroke) :
    ¬ call.Aside :=
  fun haside => Option.some_ne_none _ (h.symm.trans haside.1)

theorem not_aside_of_locks (h : call.locks = true) : ¬ call.Aside :=
  fun haside => Bool.false_ne_true (haside.2.symm.trans h)

theorem aside_report (event : Event) : (report event).Aside :=
  ⟨rfl, rfl⟩

end Call

/-- How far the bus is used in a turn. -/
inductive BusUse where
  | untouched
  /-- These strokes may still come. -/
  | held (left : List Stroke)
  | returned

/-- The bus is not held. -/
def BusUse.Free : BusUse → Prop
  | held _ => False
  | _ => True

/-- Where a caller is. -/
inductive Stage where
  | outside
  /-- The caller has the transport of an engine. -/
  | inside (engine : Handle) (serial : Serial.Transport) (use : BusUse)

namespace Stage

/-- The calls that are in order, and where they lead. The transport is given back as it was taken,
up to what it says about the last operation. -/
inductive Next : Environment Stage where
  | aside {stage : Stage} {step : Action.Step} (h : step.call.Aside) : Next stage step stage
  | takeTransport {engine : Handle} {serial : Serial.Transport} :
      Next outside ⟨.acquireTransport engine, Transport.rtu serial⟩
        (inside engine serial .untouched)
  | takeBus {engine : Handle} {serial : Serial.Transport} :
      Next (inside engine serial .untouched) ⟨.acquireBus serial.bus, ()⟩
        (inside engine serial (.held Stroke.order))
  | stroke {engine : Handle} {serial : Serial.Transport} {stroke : Stroke} {left : List Stroke}
      {step : Action.Step} (h : step.call.stroke? = some (serial.line, stroke)) :
      Next (inside engine serial (.held (stroke :: left))) step (inside engine serial (.held left))
  | giveBus {engine : Handle} {serial : Serial.Transport} {left : List Stroke} :
      Next (inside engine serial (.held left)) ⟨.releaseBus serial.bus, ()⟩
        (inside engine serial .returned)
  | giveTransport {engine : Handle} {serial : Serial.Transport} {use : BusUse} {health : Health}
      (hfree : use.Free) :
      Next (inside engine serial use)
        ⟨.releaseTransport engine (.rtu { serial with health }), ()⟩ outside

variable {stage after : Stage} {call : Call} {answer : call.Answer}

/-- Where an answered call leads is determined. -/
theorem Next.unique {after' : Stage} (h : stage.Next ⟨call, answer⟩ after)
    (h' : stage.Next ⟨call, answer⟩ after') : after = after' := by
  cases h with
  | aside haside =>
    cases h' with
    | aside => rfl
    | stroke hstroke => exact absurd haside (Call.not_aside_of_stroke hstroke)
    | _ => exact absurd haside (Call.not_aside_of_locks rfl)
  | stroke hstroke =>
    cases h' with
    | aside haside => exact absurd haside (Call.not_aside_of_stroke hstroke)
    | stroke => rfl
    | _ => cases hstroke
  | takeTransport =>
    cases h' with
    | aside haside => exact absurd haside (Call.not_aside_of_locks rfl)
    | takeTransport => rfl
  | takeBus =>
    cases h' with
    | aside haside => exact absurd haside (Call.not_aside_of_locks rfl)
    | takeBus => rfl
  | giveBus =>
    cases h' with
    | aside haside => exact absurd haside (Call.not_aside_of_locks rfl)
    | stroke hstroke => cases hstroke
    | giveBus => rfl
  | giveTransport =>
    cases h' with
    | aside haside => exact absurd haside (Call.not_aside_of_locks rfl)
    | stroke hstroke => cases hstroke
    | giveTransport => rfl

/-- A transport is given back. -/
def Returns (engine : Handle) (serial : Serial.Transport) (transport : Transport) (stage : Stage) :
    Prop :=
  ∃ health use, transport = .rtu { serial with health } ∧ BusUse.Free use ∧
    stage = inside engine serial use

end Stage

namespace Action

variable {α β : Type} {post : α → Prop} {stage : Stage}

/-- A call that is in order whatever the answer to it is. -/
theorem obeys_next {after : Stage} {call : Call} {next : call.Answer → Action α}
    {post : α → Stage → Prop} (h : ∀ answer, stage.Next ⟨call, answer⟩ after)
    (hnext : ∀ answer, (next answer).Obeys Stage.Next post after) :
    (perform call >>= next).Obeys Stage.Next post stage := by
  apply obeys_perform_bind.mpr
  obtain ⟨answer⟩ := nonempty_answer call
  refine ⟨⟨answer, after, h answer⟩, ?_⟩
  intro answer after' hafter
  rw [hafter.unique (h answer)]
  exact hnext answer

/-- What is done aside is in order wherever the caller is, and leaves the caller there. -/
theorem obeys_aside_bind {first : Action α} {next : α → Action β} {post' : β → Stage → Prop}
    (h : first.Does Call.Aside post)
    (hnext : ∀ result, (next result).Obeys Stage.Next post' stage) :
    (first >>= next).Obeys Stage.Next post' stage := by
  have hfirst : first.Obeys Stage.Next (fun result after => post result ∧ after = stage) stage := by
    apply h.obeys
    · intro call haside
      obtain ⟨answer⟩ := nonempty_answer call
      exact ⟨answer, .aside haside⟩
    · exact fun call answer after haside hafter => hafter.unique (.aside haside)
  apply hfirst.bind
  intro result after hsame
  rw [hsame.2]
  exact hnext result

/-- The action takes and gives back whatever it uses. -/
def Orderly (action : Action α) : Prop :=
  action.Obeys Stage.Next (fun _ stage => stage = .outside) .outside

theorem orderly_pure (result : α) : (pure result : Action α).Orderly :=
  rfl

theorem Orderly.bind {action : Action α} {next : α → Action β} (h : action.Orderly)
    (hnext : ∀ result, (next result).Orderly) : (action >>= next).Orderly := by
  apply Obeys.bind h
  intro result stage houtside
  rw [houtside]
  exact hnext result

theorem orderly_perform_bind {call : Call} {next : call.Answer → Action α} (h : call.Aside)
    (hnext : ∀ answer, (next answer).Orderly) : (perform call >>= next).Orderly :=
  obeys_next (fun _ => .aside h) hnext

end Action

namespace Serial.Transport

variable {serial : Serial.Transport} {engine : Handle} {stage : Stage} {frame : Bytes}
  {direction : Direction} {unit : UnitId} {function : UInt8} {payload : Bytes} {length : Nat}

theorem reportFrame_aside :
    (serial.reportFrame direction frame).Does Call.Aside fun _ => True :=
  Action.does_reportUnless (Call.aside_report _)

theorem reportBytes_aside :
    (serial.reportBytes direction frame).Does Call.Aside fun _ => True :=
  Action.does_reportUnless (Call.aside_report _)

theorem logFailure_aside {α : Type} {received : Bytes} {result : Except RequestError α} :
    (serial.logFailure frame received result).Does Call.Aside fun _ => True := by
  unfold logFailure
  split
  next =>
    apply Action.does_perform_bind.mpr
    refine ⟨⟨rfl, rfl⟩, fun reason => ?_⟩
    cases reason with
    | none => exact trivial
    | some reason => exact Action.does_perform (Call.aside_report _) fun _ => trivial
  next => exact trivial

/-- Two strokes, of which the second follows only if the first one did not fail. -/
theorem writeFrame_obeys :
    (serial.writeFrame frame).Obeys Stage.Next
      (fun result stage => ∃ left, stage = .inside engine serial (.held left) ∧
        (result = .ok () → left = [.read, .read]))
      (.inside engine serial (.held Stroke.order)) := by
  unfold writeFrame
  apply Action.obeys_next fun _ => .stroke rfl
  intro flushed
  cases flushed with
  | error kind => exact ⟨_, rfl, fun heq => by cases heq⟩
  | ok _ =>
    apply Action.obeys_aside_bind reportFrame_aside
    intro _
    apply Action.obeys_aside_bind reportBytes_aside
    intro _
    apply Action.obeys_next fun _ => .stroke rfl
    intro written
    cases written with
    | error kind => exact ⟨_, rfl, fun heq => by cases heq⟩
    | ok _ => exact ⟨_, rfl, fun _ => rfl⟩

/-- The end of an exchange, when all was read, goes on where the caller is. -/
theorem settle_obeys {received : Bytes} :
    (serial.settle received length).Obeys Stage.Next (fun _ after => after = stage) stage := by
  apply Action.obeys_aside_bind reportBytes_aside
  intro _
  split
  next => exact rfl
  next =>
    apply Action.obeys_aside_bind reportFrame_aside
    intro _
    exact rfl

theorem exchangeFrame_obeys :
    (serial.exchangeFrame frame length).Obeys Stage.Next
      (fun _ stage => ∃ left, stage = .inside engine serial (.held left))
      (.inside engine serial (.held Stroke.order)) := by
  unfold exchangeFrame
  apply writeFrame_obeys.bind
  rintro result _ ⟨left, rfl, hleft⟩
  cases result with
  | error error => exact ⟨left, rfl⟩
  | ok _ =>
    cases hleft rfl
    apply Action.obeys_next fun _ => .stroke rfl
    intro head
    rcases head with kind | _ | ⟨unit, _ | ⟨echo, head⟩⟩
    case error => exact ⟨_, rfl⟩
    case ok.nil =>
      apply Action.obeys_aside_bind reportBytes_aside
      intro _
      exact ⟨_, rfl⟩
    case ok.cons.nil =>
      apply Action.obeys_aside_bind reportBytes_aside
      intro _
      exact ⟨_, rfl⟩
    case ok.cons.cons =>
      apply Action.obeys_next fun _ => .stroke rfl
      intro rest
      cases rest with
      | error kind => exact ⟨_, rfl⟩
      | ok rest =>
        dsimp only
        split
        next =>
          apply Action.obeys_next fun _ => .aside (Call.aside_report _)
          intro _
          exact settle_obeys.mono fun _ _ hsame => ⟨_, hsame⟩
        next => exact settle_obeys.mono fun _ _ hsame => ⟨_, hsame⟩

theorem send_obeys :
    (serial.send unit function payload).Obeys Stage.Next
      (fun outcome stage => stage.Returns engine serial (.rtu outcome.2))
      (.inside engine serial .untouched) := by
  unfold send
  split
  next => exact ⟨_, .untouched, rfl, trivial, rfl⟩
  next frame _ =>
    apply Action.obeys_next fun _ => .takeBus
    intro _
    apply writeFrame_obeys.bind
    rintro result _ ⟨left, rfl, -⟩
    apply Action.obeys_next fun _ => .giveBus
    intro _
    apply Action.obeys_aside_bind logFailure_aside
    intro _
    exact ⟨_, .returned, rfl, trivial, rfl⟩

theorem exchange_obeys :
    (serial.exchange unit function payload length).Obeys Stage.Next
      (fun outcome stage => stage.Returns engine serial (.rtu outcome.2))
      (.inside engine serial .untouched) := by
  unfold exchange
  split
  next => exact ⟨_, .untouched, rfl, trivial, rfl⟩
  next frame _ =>
    apply Action.obeys_next fun _ => .takeBus
    intro _
    apply exchangeFrame_obeys.bind
    rintro result _ ⟨left, rfl⟩
    apply Action.obeys_next fun _ => .giveBus
    intro _
    apply Action.obeys_aside_bind logFailure_aside
    intro _
    exact ⟨_, .returned, rfl, trivial, rfl⟩

end Serial.Transport

namespace Engine

variable {α : Type} {engine : Engine}

/-- A turn is in order if the work with the transport is. -/
theorem use_orderly {work : Transport → Action (α × Transport)}
    (hwork : ∀ serial, (work (.rtu serial)).Obeys Stage.Next
      (fun outcome stage => stage.Returns engine.transport serial outcome.2)
      (.inside engine.transport serial .untouched)) : (engine.use work).Orderly := by
  unfold use
  apply Action.obeys_perform_bind.mpr
  refine ⟨⟨Transport.rtu { line := 0, bus := 0, options := {} }, _, .takeTransport⟩, ?_⟩
  intro found after hafter
  cases hafter with
  | aside haside => exact absurd haside (Call.not_aside_of_locks rfl)
  | takeTransport =>
    apply (hwork _).bind
    rintro ⟨result, transport⟩ _ ⟨health, use, rfl, hfree, rfl⟩
    apply Action.obeys_next fun _ => .giveTransport hfree
    intro _
    exact rfl

theorem observe_orderly (view : Transport → α) : (engine.observe view).Orderly :=
  use_orderly fun serial => ⟨serial.health, .untouched, rfl, trivial, rfl⟩

theorem connect_orderly : engine.connect.Orderly :=
  use_orderly fun serial => ⟨serial.health, .untouched, rfl, trivial, rfl⟩

theorem exchange_orderly {function : UInt8} {payload : Bytes} {length : Nat} :
    (engine.exchange function payload length).Orderly :=
  use_orderly fun _ => Serial.Transport.exchange_obeys.bind fun _ _ hreturns => hreturns

theorem sendTo_orderly {unit : UnitId} {function : UInt8} {payload : Bytes} :
    (engine.sendTo unit function payload).Orderly :=
  use_orderly fun _ => Serial.Transport.send_obeys.bind fun _ _ hreturns => hreturns

theorem status_orderly : engine.status.Orderly := by
  apply (observe_orderly Transport.detail?).bind
  intro detail
  cases detail <;> exact Action.orderly_pure _

theorem submit_orderly {request : Except InvalidRequest (Request α)} :
    (engine.submit request).Orderly := by
  cases request with
  | error cause => exact Action.orderly_pure _
  | ok request =>
    apply exchange_orderly.bind
    intro reply
    cases reply <;> exact Action.orderly_pure _

theorem perform_orderly (operation : Operation) : (engine.perform operation).Orderly := by
  unfold perform
  split
  next => exact Action.orderly_pure _
  next request _ =>
    show (engine.submit (.ok request)).Orderly
    exact submit_orderly
  next => exact sendTo_orderly.bind fun _ => Action.orderly_pure _

end Engine

namespace CacheManager

variable {manager : CacheManager} {function : CacheFunction} {start count : UInt16}

theorem cachedAt_orderly : (manager.cachedAt function start count).Orderly := by
  unfold cachedAt
  split
  next => exact Action.orderly_pure _
  next range _ =>
    apply Action.orderly_perform_bind ⟨rfl, rfl⟩
    intro store
    apply Action.orderly_perform_bind ⟨rfl, rfl⟩
    intro now
    split
    next => exact Action.orderly_pure _
    next => exact Action.orderly_perform_bind ⟨rfl, rfl⟩ fun _ => Action.orderly_pure _

theorem read_orderly : (manager.read function start count).Orderly := by
  apply cachedAt_orderly.bind
  intro cells
  cases cells with
  | none => exact Engine.submit_orderly
  | some cells => exact Action.orderly_pure _

theorem send_orderly (command : Command) : (manager.send command).Orderly := by
  apply Action.orderly_perform_bind ⟨rfl, rfl⟩
  intro alive
  split <;> exact Action.orderly_pure _

end CacheManager

theorem RetryPolicy.run_orderly {α : Type} {policy : RetryPolicy}
    {attempt : Action (Except RequestError α)} (h : attempt.Orderly) :
    (policy.run attempt).Orderly := by
  unfold run
  generalize policy.count.toNat = left
  induction left with
  | zero => exact h
  | succ left ih =>
    apply h.bind
    intro result
    cases result with
    | ok result => exact Action.orderly_pure _
    | error error =>
      dsimp only
      split
      next =>
        apply Action.orderly_perform_bind ⟨rfl, rfl⟩
        intro _
        split
        next => exact Action.orderly_perform_bind ⟨rfl, rfl⟩ fun _ => ih
        next => exact ih
      next => exact Action.orderly_pure _

namespace Device

variable {device : Device} {operation : Operation}

theorem readThrough_orderly {manager : CacheManager} {function : CacheFunction}
    {start count : UInt16} : (readThrough manager function start count).Orderly :=
  CacheManager.read_orderly.bind fun _ => Action.orderly_pure _

theorem attempt_orderly : (device.attempt operation).Orderly := by
  unfold attempt
  split
  next => exact readThrough_orderly.bind fun _ => Action.orderly_pure _
  next => exact readThrough_orderly
  next => exact readThrough_orderly
  next => exact readThrough_orderly
  next => exact readThrough_orderly
  next => exact Engine.perform_orderly _

theorem perform_orderly : (device.perform operation).Orderly :=
  RetryPolicy.run_orderly attempt_orderly

end Device

namespace PollTask

variable {task : PollTask}

theorem start_orderly : task.start.Orderly :=
  Action.orderly_perform_bind ⟨rfl, rfl⟩ fun _ => Action.orderly_pure _

theorem sweepFrom_orderly (blocks : List CacheBlock) (index : Nat) :
    (task.sweepFrom index blocks).Orderly := by
  induction blocks generalizing index with
  | nil => exact Action.orderly_pure _
  | cons block blocks ih =>
    apply Engine.submit_orderly.bind
    intro result
    cases result with
    | error error => exact Action.orderly_perform_bind ⟨rfl, rfl⟩ fun _ => ih _
    | ok cells =>
      apply Action.orderly_perform_bind ⟨rfl, rfl⟩
      intro now
      exact Action.orderly_perform_bind ⟨rfl, rfl⟩ fun _ => ih _

theorem obey_orderly (running : Option PollPhase) (signal : Signal) :
    (obey running signal).Orderly := by
  unfold obey
  split
  next => exact Action.orderly_pure _
  next => exact Action.orderly_perform_bind ⟨rfl, rfl⟩ fun _ => Action.orderly_pure _
  next =>
    split
    next => exact Action.orderly_pure _
    next => exact Action.orderly_perform_bind ⟨rfl, rfl⟩ fun _ => Action.orderly_pure _
  next => exact Action.orderly_perform_bind ⟨rfl, rfl⟩ fun _ => Action.orderly_pure _
  next => exact Action.orderly_perform_bind ⟨rfl, rfl⟩ fun _ => Action.orderly_pure _

/-- A sweep takes a turn for every block; waiting takes none. -/
theorem step_orderly (phase : PollPhase) : (task.step phase).Orderly := by
  cases phase with
  | sweeping =>
    apply (sweepFrom_orderly task.blocks 0).bind
    intro _
    exact Action.orderly_perform_bind ⟨rfl, rfl⟩ fun _ => Action.orderly_pure _
  | waiting deadline => exact Action.orderly_perform_bind ⟨rfl, rfl⟩ fun _ => obey_orderly _ _
  | paused => exact Action.orderly_perform_bind ⟨rfl, rfl⟩ fun _ => obey_orderly _ _
  | stopped => exact Action.orderly_pure _

end PollTask

end ModbusMaster
