import Mathlib.Order.Bounds.Defs
import ModbusMaster.Proofs.Device.Validation
import ModbusMaster.Proofs.Engine.Allowance

/-!
Repeated attempts, and the requests that they put on the medium. A run under a retry policy is
its attempts one after another, up to the first one that is final, with a pause after each of the
others. An operation of a device therefore puts its request on the medium no more often than its
attempts and their rounds allow, and never after a refusal was read.
-/

namespace ModbusMaster

/-! ### Attempts -/

/-- An attempt as it went. -/
structure Try (α : Type) where
  history : List Action.Step
  outcome : Except RequestError α

namespace Try

variable {α : Type} {pause : Duration} {count index last : Nat} {outcome : Except RequestError α}

/-- Whether no other attempt follows the one at an index, if `count` more are allowed after the
first one. -/
def Final (count index : Nat) : Except RequestError α → Prop
  | .ok _ => True
  | .error error =>
      error.errorClass = .exception ∨ error.errorClass = .request ∨
        error.errorClass = .shutdown ∨ index = count

/-- What is done after an attempt that is not the last: its error is reported with the number of
attempts that are left, then the pause is waited for, if there is one. -/
def between (pause : Duration) (count index : Nat) : Except RequestError α → List Action.Step
  | .ok _ => []
  | .error error =>
      ⟨.report (.attemptFailed error (count - index)), ()⟩ ::
        if pause = 0 then [] else [⟨.sleep pause, ()⟩]

/-- The attempts of a sequence up to the last one that is made. -/
def story (pause : Duration) (count : Nat) (tries : Nat → Try α) (last : Nat) :
    List Action.Step :=
  (List.range last).flatMap (fun index =>
      (tries index).history ++ between pause count index (tries index).outcome) ++
    (tries last).history

/-- One more attempt before all others. -/
def before (first : Try α) (others : Nat → Try α) : Nat → Try α
  | 0 => first
  | index + 1 => others index

theorem final_succ_iff : Final (count + 1) (index + 1) outcome ↔ Final count index outcome := by
  cases outcome with
  | ok _ => exact Iff.rfl
  | error error => simp only [Final, Nat.add_right_cancel_iff]

theorem between_succ : between pause (count + 1) (index + 1) outcome =
    between pause count index outcome := by
  cases outcome with
  | ok _ => rfl
  | error error => rw [between, between, Nat.add_sub_add_right]

/-- The first attempt, then the story of the others. -/
theorem story_succ (tries : Nat → Try α) : story pause (count + 1) tries (last + 1) =
    (tries 0).history ++ between pause (count + 1) 0 (tries 0).outcome ++
      story pause count (fun index => tries (index + 1)) last := by
  simp only [story, List.range_succ_eq_map, List.flatMap_cons, List.flatMap_map,
    Nat.succ_eq_add_one, between_succ, List.append_assoc]

theorem isLeast_final_zero {tries : Nat → Try α} (h : Final count 0 (tries 0).outcome) :
    IsLeast {index | Final count index (tries index).outcome} 0 :=
  ⟨h, fun index _ => Nat.zero_le index⟩

theorem isLeast_final_succ {tries : Nat → Try α} (hfirst : ¬ Final (count + 1) 0 (tries 0).outcome)
    (h : IsLeast {index | Final count index (tries (index + 1)).outcome} last) :
    IsLeast {index | Final (count + 1) index (tries index).outcome} (last + 1) := by
  refine ⟨final_succ_iff.mpr h.1, fun index hindex => ?_⟩
  cases index with
  | zero => exact absurd hindex hfirst
  | succ index => exact Nat.succ_le_succ (h.2 (final_succ_iff.mp hindex))

end Try

theorem Try.final_error_iff {α : Type} {error : RequestError} {count : Nat} :
    Try.Final (α := α) (count + 1) 0 (.error error) ↔ error.isTransient = false := by
  unfold Final RequestError.isTransient
  cases hclass : error.errorClass <;> simp [hclass]

namespace RetryPolicy

variable {α : Type} {pause : Duration} {attempt : Action (Except RequestError α)} {left : Nat}
  {history : List Action.Step} {outcome result : Except RequestError α}

/-- What follows an attempt after which `left + 1` more are allowed. -/
def goOn (pause : Duration) (attempt : Action (Except RequestError α)) (left : Nat) :
    Except RequestError α → Action (Except RequestError α)
  | .ok result => pure (.ok result)
  | .error error =>
      if error.isTransient then do
        Action.report (.attemptFailed error (left + 1))
        if pause ≠ 0 then Action.sleep pause
        attempts pause attempt left
      else pure (.error error)

theorem attempts_succ :
    attempts pause attempt (left + 1) = attempt >>= goOn pause attempt left := by
  show (attempt >>= fun outcome => _) = attempt >>= _
  congr 1

theorem goOn_of_final (h : Try.Final (left + 1) 0 outcome) :
    goOn pause attempt left outcome = pure outcome := by
  cases outcome with
  | ok _ => rfl
  | error error =>
    rw [goOn, if_neg]
    rw [Try.final_error_iff.mp h]
    exact Bool.false_ne_true

theorem goOn_runs_iff (h : ¬ Try.Final (left + 1) 0 outcome) :
    (goOn pause attempt left outcome).Runs history result ↔
      ∃ rest, history = Try.between pause (left + 1) 0 outcome ++ rest ∧
        (attempts pause attempt left).Runs rest result := by
  cases outcome with
  | ok _ => exact absurd trivial h
  | error error =>
    have htransient : error.isTransient = true :=
      Bool.eq_true_of_not_eq_false fun heq => h (Try.final_error_iff.mpr heq)
    rw [goOn, if_pos htransient]
    by_cases hpause : pause = 0
    · rw [if_neg (not_not.mpr hpause), Try.between, if_pos hpause]
      constructor
      · intro hruns
        obtain ⟨_, rest, rfl, hrest⟩ := Action.runs_perform_bind_iff.mp hruns
        exact ⟨rest, rfl, hrest⟩
      · rintro ⟨rest, rfl, hrest⟩
        exact .ask hrest
    · rw [if_pos hpause, Try.between, if_neg hpause]
      constructor
      · intro hruns
        obtain ⟨_, rest, rfl, hsleep⟩ := Action.runs_perform_bind_iff.mp hruns
        obtain ⟨_, rest, rfl, hrest⟩ := Action.runs_perform_bind_iff.mp hsleep
        exact ⟨rest, rfl, hrest⟩
      · rintro ⟨rest, rfl, hrest⟩
        exact .ask (.ask hrest)

theorem final_zero (outcome : Except RequestError α) : Try.Final 0 0 outcome := by
  cases outcome with
  | ok _ => trivial
  | error error => exact .inr (.inr (.inr rfl))

/-- A sequence of attempts, however long, is made up to the first one that is final. -/
theorem runs_of_tries (left : Nat) {tries : Nat → Try α}
    (htries : ∀ index, attempt.Runs (tries index).history (tries index).outcome) :
    ∃ last, IsLeast {index | Try.Final left index (tries index).outcome} last ∧
      (attempts pause attempt left).Runs (Try.story pause left tries last)
        (tries last).outcome := by
  induction left generalizing tries with
  | zero => exact ⟨0, Try.isLeast_final_zero (final_zero _), htries 0⟩
  | succ left ih =>
    rw [attempts_succ]
    by_cases hfinal : Try.Final (left + 1) 0 (tries 0).outcome
    · refine ⟨0, Try.isLeast_final_zero hfinal, ?_⟩
      refine Action.runs_bind_iff.mpr ⟨_, [], _, (List.append_nil _).symm, htries 0, ?_⟩
      rw [goOn_of_final hfinal]
      exact .done _
    · obtain ⟨last, hlast, hruns⟩ := ih fun index => htries (index + 1)
      refine ⟨last + 1, Try.isLeast_final_succ hfinal hlast, ?_⟩
      rw [Try.story_succ, List.append_assoc]
      refine Action.runs_bind_iff.mpr ⟨_, _, _, rfl, htries 0, ?_⟩
      exact (goOn_runs_iff hfinal).mpr ⟨_, rfl, hruns⟩

/-- Every run is the story of a sequence of attempts. -/
theorem tries_of_runs (hruns : (attempts pause attempt left).Runs history result) :
    ∃ tries : Nat → Try α,
      (∀ index, attempt.Runs (tries index).history (tries index).outcome) ∧
      ∃ last, IsLeast {index | Try.Final left index (tries index).outcome} last ∧
        history = Try.story pause left tries last ∧ result = (tries last).outcome := by
  induction left generalizing history with
  | zero =>
    exact ⟨fun _ => ⟨history, result⟩, fun _ => hruns, 0, Try.isLeast_final_zero (final_zero _),
      rfl, rfl⟩
  | succ left ih =>
    rw [attempts_succ] at hruns
    obtain ⟨first, second, outcome, rfl, hfirst, hsecond⟩ := Action.runs_bind_iff.mp hruns
    by_cases hfinal : Try.Final (left + 1) 0 outcome
    · rw [goOn_of_final hfinal] at hsecond
      obtain ⟨rfl, rfl⟩ := Action.runs_pure_iff.mp hsecond
      exact ⟨fun _ => ⟨first, result⟩, fun _ => hfirst, 0, Try.isLeast_final_zero hfinal,
        List.append_nil first, rfl⟩
    · obtain ⟨rest, rfl, hrest⟩ := (goOn_runs_iff hfinal).mp hsecond
      obtain ⟨others, hothers, last, hlast, rfl, rfl⟩ := ih hrest
      refine ⟨Try.before ⟨first, outcome⟩ others, ?_, last + 1,
        Try.isLeast_final_succ hfinal hlast, ?_, rfl⟩
      · intro index
        cases index with
        | zero => exact hfirst
        | succ index => exact hothers index
      · rw [Try.story_succ, List.append_assoc]
        rfl

end RetryPolicy

/-! ### Requests on the medium -/

/-- The node that something is put on the medium for. -/
def Demand.node (unit : UnitId) : Demand → UnitId
  | exchange _ => unit
  | broadcast _ _ => UnitId.broadcast

/-- The frame of an operation, or the first check that its arguments fail. -/
def Operation.frame (operation : Operation) (protocol : Protocol) (unit : UnitId) :
    Except InvalidRequest Bytes :=
  match operation.demand with
  | .error cause => .error cause
  | .ok demand =>
      Frame.encode protocol (demand.node unit) demand.function.code demand.payload

namespace Operation

variable {operation : Operation} {protocol : Protocol} {unit : UnitId}

theorem frame_of_exchange {β : Type} {checked : Except InvalidRequest (Request β)}
    {valueOf : β → Value} {cellsOf : β → Cells} {request : Request Cells}
    (hdemand : operation.demand = (fun r => .exchange (r.map valueOf)) <$> checked)
    (hrequest : (·.map cellsOf) <$> checked = .ok request) :
    operation.frame protocol unit =
      Frame.encode protocol unit request.function.code request.payload := by
  cases checked with
  | error cause => cases hrequest
  | ok r =>
    cases hrequest
    rw [frame, hdemand]
    rfl

/-- A read through a cache asks the equipment for what it would ask for without one. -/
theorem Reads.frame_eq {function : CacheFunction} {start count : UInt16}
    (h : operation.Reads function start count) {request : Request Cells}
    (hrequest : function.request start count = .ok request) :
    operation.frame protocol unit =
      Frame.encode protocol unit request.function.code request.payload := by
  cases h with
  | coil address =>
    -- the request for one coil is checked as the one for a range of one
    have hdemand : (readCoil start).demand =
        (fun r => .exchange (r.map .bit)) <$> Request.readCoil start := rfl
    have hcoils : (·.map Cells.bits) <$> Request.readCoils start 1 = .ok request := hrequest
    rw [frame, hdemand, Request.readCoil]
    cases hchecked : Request.readCoils start 1 with
    | error cause =>
      rw [hchecked] at hcoils
      cases hcoils
    | ok r =>
      rw [hchecked] at hcoils
      cases hcoils
      rfl
  | coils => exact frame_of_exchange rfl hrequest
  | discreteInputs => exact frame_of_exchange rfl hrequest
  | holdingRegisters => exact frame_of_exchange rfl hrequest
  | inputRegisters => exact frame_of_exchange rfl hrequest

end Operation

namespace Engine

open Allowance

variable {α : Type} {engine : Engine} {protocol : Protocol} {encoded : Except InvalidRequest Bytes}
  {before : Allowance} {spare : Nat}

theorem use_spares {work : Transport → Action (Except RequestError α × Transport)}
    (hwork : ∀ transport, transport.protocol = protocol →
      (work transport).Obeys (Next protocol encoded)
        (fun outcome after => Spared protocol spare outcome.1 after ∧
          outcome.2.protocol = protocol) before) :
    (engine.use work).Obeys (Next protocol encoded)
      (fun result after => Spared protocol spare result after) before := by
  have hsome : ∃ transport : Transport, transport.protocol = protocol := by
    cases protocol with
    | rtu => exact ⟨.rtu { line := 0, bus := 0, options := {} }, rfl⟩
    | tcp => exact ⟨.tcp { settings := { host := "", port := 0 }, host := .v4 [] }, rfl⟩
  unfold use
  refine Action.obeys_silent_bind rfl trivial trivial hsome fun transport htransport => ?_
  apply (hwork transport htransport).bind
  rintro ⟨result, transport'⟩ after ⟨hspared, hreturned⟩
  refine Action.obeys_silent_bind rfl trivial hreturned ⟨(), trivial⟩ fun _ _ => ?_
  exact hspared

theorem exchange_spares {function : UInt8} {payload : Bytes} {length : Nat}
    (hopen : ¬ Frame.Refuses protocol before.heard)
    (hleft : spare + protocol.rounds ≤ before.left) :
    (engine.exchange function payload length).Obeys
      (Next protocol (Frame.encode protocol engine.unit function payload))
      (fun result after => Spared protocol spare result after) before := by
  apply use_spares
  rintro transport rfl
  exact transport.exchange_spares hopen hleft

theorem sendTo_spares {unit : UnitId} {function : UInt8} {payload : Bytes}
    (hopen : ¬ Frame.Refuses protocol before.heard)
    (hleft : spare + protocol.rounds ≤ before.left) :
    (engine.sendTo unit function payload).Obeys
      (Next protocol (Frame.encode protocol unit function payload))
      (fun result after => Spared protocol spare result after) before := by
  apply use_spares
  rintro transport rfl
  exact transport.send_spares hopen hleft

theorem submit_spares {request : Except InvalidRequest (Request α)}
    (hencoded : ∀ accepted, request = .ok accepted →
      encoded = Frame.encode protocol engine.unit accepted.function.code accepted.payload)
    (hopen : ¬ Frame.Refuses protocol before.heard)
    (hleft : spare + protocol.rounds ≤ before.left) :
    (engine.submit request).Obeys (Next protocol encoded)
      (fun result after => Spared protocol spare result after) before := by
  cases request with
  | error cause => exact .of_open (Nat.le_of_add_right_le hleft) hopen
  | ok accepted =>
    rw [hencoded accepted rfl]
    apply (exchange_spares hopen hleft).bind
    intro reply after hspared
    cases reply with
    | error error => exact hspared.view fun code h => by cases h; rfl
    | ok reply => exact hspared.view fun code h => by cases h

theorem perform_spares (operation : Operation) (hopen : ¬ Frame.Refuses protocol before.heard)
    (hleft : spare + protocol.rounds ≤ before.left) :
    (engine.perform operation).Obeys (Next protocol (operation.frame protocol engine.unit))
      (fun result after => Spared protocol spare result after) before := by
  rw [perform, Operation.frame]
  cases operation.demand with
  | error cause => exact .of_open (Nat.le_of_add_right_le hleft) hopen
  | ok demand =>
    cases demand with
    | exchange request =>
      have hsubmit : (engine.submit (.ok request)).Obeys _ _ _ :=
        submit_spares (fun accepted h => by cases h; rfl) hopen hleft
      exact hsubmit
    | broadcast function payload =>
      apply (sendTo_spares hopen hleft).bind
      intro result after hspared
      refine hspared.view fun code h => ?_
      rw [h]
      rfl

end Engine

/-- The calls that look up a cache concern no medium. -/
theorem CacheManager.cachedAt_mute {manager : CacheManager} {function : CacheFunction}
    {start count : UInt16} :
    (manager.cachedAt function start count).Does Call.Mute fun _ => True := by
  unfold cachedAt
  split
  next => exact trivial
  next range _ =>
    refine Action.does_perform_bind.mpr ⟨trivial, fun store => ?_⟩
    refine Action.does_perform_bind.mpr ⟨trivial, fun now => ?_⟩
    split
    next => exact trivial
    next => exact ⟨trivial, fun _ => trivial⟩

namespace Device

open Allowance

variable {engine : Engine} {cache : Option CacheManager} {retry : RetryPolicy}
  {operation : Operation} {protocol : Protocol} {before : Allowance} {spare : Nat}

theorem attempt_spares (hcache : ∀ manager, cache = some manager → manager.engine = engine)
    (hopen : ¬ Frame.Refuses protocol before.heard)
    (hleft : spare + protocol.rounds ≤ before.left) :
    (attempt ⟨engine, cache, retry⟩ operation).Obeys
      (Next protocol (operation.frame protocol engine.unit))
      (fun result after => Spared protocol spare result after) before := by
  cases cache with
  | none =>
    rw [attempt_eq_perform]
    exact Engine.perform_spares operation hopen hleft
  | some manager =>
    cases reads_or_plain operation with
    | inr hplain =>
      rw [hplain]
      exact Engine.perform_spares operation hopen hleft
    | inl hreads =>
      obtain ⟨function, start, count, hreads⟩ := hreads
      rw [attempt_cached hreads]
      have hread : (manager.read function start count).Obeys
          (Next protocol (operation.frame protocol engine.unit))
          (fun result after => Spared protocol spare result after) before := by
        apply Action.obeys_mute_bind CacheManager.cachedAt_mute
        intro served _
        cases served with
        | some cells => exact .of_open (Nat.le_of_add_right_le hleft) hopen
        | none =>
          rw [hcache manager rfl]
          exact Engine.submit_spares (fun accepted h => hreads.frame_eq h) hopen hleft
      apply hread.bind
      intro result after hspared
      refine hspared.view fun code h => ?_
      rw [h]
      rfl

/-- As many attempts as are left, each with its rounds. -/
theorem attempts_spare (hcache : ∀ manager, cache = some manager → manager.engine = engine)
    (pause : Duration) (left : Nat) (hopen : ¬ Frame.Refuses protocol before.heard)
    (hleft : protocol.rounds * (left + 1) ≤ before.left) :
    (RetryPolicy.attempts pause (attempt ⟨engine, cache, retry⟩ operation) left).Obeys
      (Next protocol (operation.frame protocol engine.unit)) (fun _ _ => True) before := by
  induction left generalizing before with
  | zero =>
    have hlast : 0 + protocol.rounds ≤ before.left := by omega
    exact (attempt_spares hcache hopen hlast).mono fun _ _ _ => trivial
  | succ left ih =>
    rw [RetryPolicy.attempts_succ]
    have hfirst : protocol.rounds * (left + 1) + protocol.rounds ≤ before.left := by
      rw [← Nat.mul_succ]
      exact hleft
    apply (attempt_spares hcache hopen hfirst).bind
    intro outcome after hspared
    by_cases hfinal : Try.Final (left + 1) 0 outcome
    · rw [RetryPolicy.goOn_of_final hfinal]
      exact trivial
    · cases outcome with
      | ok value => exact absurd trivial hfinal
      | error error =>
        -- an attempt that ended in a refusal would have been the last
        have hagain : ¬ Frame.Refuses protocol after.heard := by
          intro hrefuses
          obtain ⟨code, hcode⟩ := hspared.final hrefuses
          cases hcode
          exact hfinal (.inl rfl)
        rw [RetryPolicy.goOn]
        split
        next =>
          refine Action.obeys_call_bind trivial fun _ => ?_
          split
          next => exact Action.obeys_call_bind trivial fun _ => ih hagain hspared.left
          next => exact ih hagain hspared.left
        next => exact trivial

/-- A device keeps the unit and the policy that it was created with, and its cache uses its
engine. -/
theorem create_eq {transport : Transport} {unit : UnitId} {config : Option CacheConfig}
    {created : List Action.Step} {device : Device}
    (hruns : (create transport unit config retry).Runs created device) :
    device.engine.unit = unit ∧ device.retry = retry ∧
      ∀ manager, device.cache = some manager → manager.engine = device.engine := by
  obtain ⟨handle, rest, rfl, hrest⟩ := Action.runs_perform_bind_iff.mp hruns
  cases config with
  | none =>
    obtain ⟨-, rfl⟩ := Action.runs_pure_iff.mp hrest
    exact ⟨rfl, rfl, fun manager h => by cases h⟩
  | some config =>
    obtain ⟨first, second, ⟨manager, task⟩, rfl, hcache, hstart⟩ := Action.runs_bind_iff.mp hrest
    obtain ⟨_, rest, rfl, hdone⟩ := Action.runs_perform_bind_iff.mp hstart
    obtain ⟨-, rfl⟩ := Action.runs_pure_iff.mp hdone
    obtain ⟨cache, hmanager, -⟩ := CacheManager.created_eq hcache
    refine ⟨rfl, rfl, fun other h => ?_⟩
    cases h
    rw [hmanager]

theorem perform_repeats {history : List Action.Step} {result : Except RequestError Value}
    (hcache : ∀ manager, cache = some manager → manager.engine = engine)
    (hruns : (perform ⟨engine, cache, retry⟩ operation).Runs history result)
    (hanswers : ∀ step ∈ history, step.Plausible protocol) :
    Action.Repeats protocol (operation.frame protocol engine.unit)
      (protocol.rounds * (retry.count.toNat + 1)) history := by
  have hobeys : (perform ⟨engine, cache, retry⟩ operation).Obeys
      (Next protocol (operation.frame protocol engine.unit)) (fun _ _ => True)
      ⟨protocol.rounds * (retry.count.toNat + 1), []⟩ :=
    attempts_spare hcache retry.sleep retry.count.toNat
      (Frame.not_refuses_of_short (Nat.zero_le _)) (Nat.le_refl _)
  obtain ⟨after, hallows, -⟩ := allows_of_obeys hobeys hruns hanswers
  exact repeats_of_allows hallows

/-- Attempts are made up to the first one that succeeds, that ends in an exception, in a refused
request or in a shutdown, or that is the last one allowed; between two of them there is the pause
and nothing else, and the last one has the result. So an operation of a device, whatever the
equipment and the network do, puts its request on the medium at most once for each attempt on a
serial line and twice over TCP, and nothing after a refusal was read. -/
theorem requests_bounded :
    (∀ {α : Type} (policy : RetryPolicy) (attempt : Action (Except RequestError α)),
      (∀ tries : Nat → Try α,
        (∀ index, attempt.Runs (tries index).history (tries index).outcome) →
        ∃ last,
          IsLeast {index | Try.Final policy.count.toNat index (tries index).outcome} last ∧
          (policy.run attempt).Runs (Try.story policy.sleep policy.count.toNat tries last)
            (tries last).outcome) ∧
      ∀ history result, (policy.run attempt).Runs history result →
        ∃ tries : Nat → Try α,
          (∀ index, attempt.Runs (tries index).history (tries index).outcome) ∧
          ∃ last,
            IsLeast {index | Try.Final policy.count.toNat index (tries index).outcome} last ∧
            history = Try.story policy.sleep policy.count.toNat tries last ∧
            result = (tries last).outcome) ∧
    ∀ (transport : Transport) (unit : UnitId) (config : Option CacheConfig) (retry : RetryPolicy)
      (operation : Operation) created device history result,
      (create transport unit config retry).Runs created device →
      (device.perform operation).Runs history result →
      (∀ step ∈ history, step.Plausible transport.protocol) →
      Action.Repeats transport.protocol (operation.frame transport.protocol unit)
        (transport.protocol.rounds * (retry.count.toNat + 1)) history := by
  refine ⟨?runs, ?requests⟩
  case runs =>
    intro α policy attempt
    refine ⟨fun tries htries => RetryPolicy.runs_of_tries _ htries, ?_⟩
    exact fun history result hruns => RetryPolicy.tries_of_runs hruns
  case requests =>
    intro transport unit config retry operation created device history result hcreated hruns
      hanswers
    obtain ⟨rfl, rfl, hcache⟩ := create_eq hcreated
    exact perform_repeats hcache hruns hanswers

/-- A write over TCP that may be tried twice. The peer closes the connection, does not answer on
the next one, and refuses the request on the third. -/
theorem requests_bounded_write :
    let device : Device := { engine := ⟨⟨1⟩, .tcp, 0⟩, retry := ⟨1, Duration.ofSeconds 3⟩ }
    let frame : Bytes := [1, 0, 0, 0, 0, 6, 1, 6, 0, 5, 0, 7]
    ∃ history, (device.perform (.writeRegister 5 7)).Runs history
        (.error (.exception .illegalDataAddress)) ∧
      Action.puts history = [frame, frame, frame] ∧
      Action.Repeats .tcp (.ok frame) 4 history := by
  intro device frame
  let net : Tcp.Transport :=
    { settings := { host := "plc", port := 502 }, host := .v4 [10, 0, 0, 7], stream := some 1
      connection := .connected }
  let limit := net.settings.timeout
  let opened : Tcp.Transport := { net with
    stream := none, connection := .disconnected, lastAttempt := some 0, attempts := 1
    health := ⟨.unknown, some (net.wording .responseTimeout)⟩ }
  let again : Tcp.Transport := { opened with
    stream := some 3, connection := .connected, attempts := 2
    lastAttempt := some (Duration.ofSeconds 3)
    health := ⟨.unknown, some (net.wording (.exception .illegalDataAddress))⟩ }
  let first : List Action.Step :=
    [⟨.acquireTransport 0, .tcp net⟩, ⟨.transmit 1 frame limit, .ok ()⟩,
      ⟨.receive 1 512 limit, .ok []⟩, ⟨.close 1, ()⟩,
      ⟨.report (.disconnected net.address), ()⟩, ⟨.report .closedByPeer, ()⟩,
      ⟨.now, (0 : Nat)⟩, ⟨.now, (0 : Nat)⟩, ⟨.connect net.settings net.host, .ok 2⟩,
      ⟨.report (.connected net.address), ()⟩, ⟨.transmit 2 frame limit, .ok ()⟩,
      ⟨.receive 2 512 limit, .error .elapsed⟩, ⟨.close 2, ()⟩,
      ⟨.report (.disconnected net.address), ()⟩, ⟨.releaseTransport 0 (.tcp opened), ()⟩]
  let pause : List Action.Step :=
    [⟨.report (.attemptFailed .responseTimeout 1), ()⟩, ⟨.sleep (Duration.ofSeconds 3), ()⟩]
  let second : List Action.Step :=
    [⟨.acquireTransport 0, .tcp opened⟩, ⟨.now, Duration.ofSeconds 3⟩,
      ⟨.now, Duration.ofSeconds 3⟩, ⟨.connect net.settings net.host, .ok 3⟩,
      ⟨.report (.connected net.address), ()⟩, ⟨.transmit 3 frame limit, .ok ()⟩,
      ⟨.receive 3 512 limit, .ok [1, 0, 0, 0, 0, 3, 1, 0x86, 2]⟩,
      ⟨.releaseTransport 0 (.tcp again), ()⟩]
  have hcreated : (create (.tcp net) ⟨1⟩ none device.retry).Runs
      [⟨.newEngine (.tcp net), (0 : Nat)⟩] device := .ask (.done _)
  have hruns : (device.perform (.writeRegister 5 7)).Runs (first ++ pause ++ second)
      (.error (.exception .illegalDataAddress)) := by
    refine .ask (.ask (.ask (.ask (.ask (.ask (.ask (.ask ?_)))))))
    refine .ask (.ask (.ask (.ask (.ask (.ask (.ask ?_))))))
    refine .ask (.ask ?_)
    exact .ask (.ask (.ask (.ask (.ask (.ask (.ask (.ask (.done _))))))))
  have hanswers : ∀ step ∈ first ++ pause ++ second, step.Plausible .tcp := by
    simp only [first, pause, second, List.forall_mem_append, List.forall_mem_cons]
    simp [Action.Step.Plausible, Transport.protocol]
  exact ⟨_, hruns, rfl, requests_bounded.2 _ _ _ _ _ _ _ _ _ hcreated hruns hanswers⟩

end Device

end ModbusMaster
