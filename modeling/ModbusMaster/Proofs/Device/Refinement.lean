import ModbusMaster.Device
import ModbusMaster.Proofs.Cache.Reading

/-!
A device with a cache beside a device without one over the same engine. Both make the same of the
cells that a read gets; the cached device gets them from a snapshot, or as the other one does.
-/

namespace ModbusMaster

/-! ### The reads of a device -/

/-- The reads that a cache may answer, and the cells that they ask for. -/
inductive Operation.Reads : Operation → CacheFunction → UInt16 → UInt16 → Prop where
  | coil (address : UInt16) : Reads (.readCoil address) .readMultipleCoils address 1
  | coils (start count : UInt16) : Reads (.readCoils start count) .readMultipleCoils start count
  | discreteInputs (start count : UInt16) :
      Reads (.readDiscreteInputs start count) .readInputStatus start count
  | holdingRegisters (start count : UInt16) :
      Reads (.readHoldingRegisters start count) .readHoldingRegisters start count
  | inputRegisters (start count : UInt16) :
      Reads (.readInputRegisters start count) .readInputRegisters start count

/-- What a read makes of the cells that it asked for. -/
def Operation.valueOf : Operation → Cells → Except RequestError Value
  | .readCoil _, cells => Device.onlyState cells.value
  | _, cells => .ok cells.value

variable {operation : Operation} {function : CacheFunction} {start count : UInt16}

theorem Operation.valueOf_accepted (cells : Cells) : Accepted (operation.valueOf cells) := by
  cases operation with
  | readCoil address =>
    cases cells with
    | registers contents => exact id
    | bits states =>
      cases states with
      | nil => exact id
      | cons state rest => exact trivial
  | _ => exact trivial

namespace Engine

variable {α β : Type} {engine : Engine}

/-- Two requests that differ in what they make of the data of a reply only. -/
theorem execute_eq {first : Request α} {second : Request β} {view : β → Except RequestError α}
    (hfunction : first.function = second.function) (hpayload : first.payload = second.payload)
    (hlength : first.replyLength = second.replyLength)
    (hanswer : ∀ data, (first.answer data).mapError RequestError.badResponse =
      ((second.answer data).mapError RequestError.badResponse).bind view) :
    engine.execute first = (·.bind view) <$> engine.execute second := by
  unfold execute
  rw [hfunction, hpayload, hlength, map_bind]
  congr 1
  funext result
  cases result with
  | error error => rfl
  | ok reply =>
    show pure ((first.answerOf reply).mapError RequestError.badResponse) =
      pure (((second.answerOf reply).mapError RequestError.badResponse).bind view)
    congr 1
    cases reply with
    | nil =>
      unfold Request.answerOf
      rw [hlength]
      rfl
    | cons echo data =>
      simp only [Request.answerOf, hfunction]
      by_cases hecho : echo = second.function.code
      · rw [if_pos hecho, if_pos hecho]
        exact hanswer data
      · rw [if_neg hecho, if_neg hecho]
        rfl

/-- A read that returns all of its cells. -/
theorem perform_eq_submit {checked : Except InvalidRequest (Request α)} {cellsOf : α → Cells}
    (hdemand : operation.demand =
      (fun request => .exchange (request.map fun a => (cellsOf a).value)) <$> checked)
    (hrequest : function.request start count = (·.map cellsOf) <$> checked)
    (hvalue : operation.valueOf = fun cells => .ok cells.value) :
    engine.perform operation =
      (·.bind operation.valueOf) <$> engine.submit (function.request start count) := by
  rw [hvalue, hrequest, perform, hdemand]
  cases checked with
  | error cause => rfl
  | ok request =>
    show engine.execute (request.map fun a => (cellsOf a).value) =
      (·.bind fun cells => .ok cells.value) <$> engine.execute (request.map cellsOf)
    apply execute_eq
    · rfl
    · rfl
    · rfl
    · intro data
      show ((request.answer data).map _).mapError RequestError.badResponse =
        (((request.answer data).map cellsOf).mapError RequestError.badResponse).bind _
      cases request.answer data <;> rfl

/-- A single coil is read as a range of one coil. -/
theorem perform_readCoil (address : UInt16) : engine.perform (.readCoil address) =
    (·.bind (Operation.readCoil address).valueOf) <$>
      engine.submit (CacheFunction.readMultipleCoils.request address 1) := by
  have hdemand : (Operation.readCoil address).demand =
      (fun request => .exchange (request.map .bit)) <$> Request.readCoil address := rfl
  have hrequest : CacheFunction.readMultipleCoils.request address 1 =
      (·.map Cells.bits) <$> Request.readCoils address 1 := rfl
  rw [perform, hdemand, hrequest, Request.readCoil]
  cases Request.readCoils address 1 with
  | error cause => rfl
  | ok request =>
    show engine.execute (Request.map Value.bit
        { request with answer := fun data => request.answer data >>= firstState }) =
      (·.bind (Operation.readCoil address).valueOf) <$> engine.execute (request.map Cells.bits)
    apply execute_eq
    · rfl
    · rfl
    · rfl
    · intro data
      show ((request.answer data >>= firstState).map Value.bit).mapError
          RequestError.badResponse =
        (((request.answer data).map Cells.bits).mapError RequestError.badResponse).bind _
      cases request.answer data <;> rfl

end Engine

namespace Device

variable {engine : Engine} {manager : CacheManager} {retry : RetryPolicy}

theorem attempt_plain (h : operation.Reads function start count) :
    attempt ⟨engine, none, retry⟩ operation =
      (·.bind operation.valueOf) <$> engine.submit (function.request start count) := by
  cases h with
  | coil => exact Engine.perform_readCoil start
  | coils => exact Engine.perform_eq_submit rfl rfl rfl
  | discreteInputs => exact Engine.perform_eq_submit rfl rfl rfl
  | holdingRegisters => exact Engine.perform_eq_submit rfl rfl rfl
  | inputRegisters => exact Engine.perform_eq_submit rfl rfl rfl

theorem readThrough_eq : readThrough manager function start count =
    (·.bind fun cells => .ok cells.value) <$> manager.read function start count := rfl

theorem attempt_cached (h : operation.Reads function start count) :
    attempt ⟨engine, some manager, retry⟩ operation =
      (·.bind operation.valueOf) <$> manager.read function start count := by
  cases h with
  | coil =>
    show (readThrough manager .readMultipleCoils start 1 >>= fun result =>
      pure (result.bind onlyState)) = _
    rw [readThrough_eq, bind_map_left]
    show manager.read .readMultipleCoils start 1 >>= _ =
      manager.read .readMultipleCoils start 1 >>= _
    congr 1
    funext result
    cases result <;> rfl
  | coils => exact readThrough_eq
  | discreteInputs => exact readThrough_eq
  | holdingRegisters => exact readThrough_eq
  | inputRegisters => exact readThrough_eq

/-! ### With and without a cache -/

variable {config : CacheConfig} {task : PollTask} {progress : Progress} {world : CacheWorld}
  {now : Instant} {history : List Action.Step} {result : Except RequestError Value}

/-- A read that the plain device refuses is refused before anything is done. -/
theorem refused_of_badRequest {cause : InvalidRequest} (h : operation.Reads function start count)
    (hruns : (attempt ⟨engine, none, retry⟩ operation).Runs history
      (.error (.badRequest cause))) :
    function.request start count = .error cause ∧ history = [] := by
  rw [attempt_plain h] at hruns
  obtain ⟨inner, hsubmit, hinner⟩ := Action.runs_map_iff.mp hruns
  cases hrequest : function.request start count with
  | error reason =>
    rw [hrequest] at hsubmit
    obtain ⟨rfl, rfl⟩ := Action.runs_pure_iff.mp hsubmit
    cases hinner
    exact ⟨rfl, rfl⟩
  | ok request =>
    -- once there is a request, neither its exchange nor its answer refuses it
    obtain ⟨rfl, hfits⟩ := CacheFunction.request_eq_ok hrequest
    have hsized := CacheFunction.requestOf_sized hfits
    rw [hrequest] at hsubmit
    have haccepted := (Action.Does.of_runs (Engine.execute_does hsized) hsubmit).2.1
    cases inner with
    | error error =>
      cases hinner
      exact absurd rfl (haccepted.ne_badRequest cause)
    | ok cells =>
      exact absurd hinner.symm ((Operation.valueOf_accepted cells).ne_badRequest cause)

/-- A read that an entry serves is one that the equipment could be asked. -/
theorem fits_of_covers (hsession : task.Session progress world) (hcount : count ≠ 0)
    {maxDelta : Duration} (h : world.store.Covers now maxDelta function start count) :
    AddressRange.Fits ⟨start, count⟩ function.limit.toNat := by
  obtain ⟨entry, hentry, hserves⟩ := h
  obtain ⟨snapshot, hsnapshot, -⟩ := hserves.fresh
  have hfits := (hsession.sound.kept.entry hentry hsnapshot).fits
  rw [hserves.function_eq] at hfits
  have hoffset := hserves.offset_le
  refine ⟨?_, Nat.le_trans hserves.le_stop hfits.stop_le, ?_⟩
  · exact Nat.pos_of_ne_zero fun hzero => hcount (UInt16.toNat_inj.mp hzero)
  · exact Nat.le_trans (Nat.le_trans (Nat.le_add_left _ _) hoffset) hfits.count_le

/-- A read that the cache covers is served from a snapshot. -/
theorem attempt_served (hsession : task.Session progress world)
    (hreads : operation.Reads function start count) (hcount : count ≠ 0)
    (hcovers : world.store.Covers now manager.maxDelta function start count) :
    ∃ entry ∈ world.store, ∃ snapshot, entry.snapshot = some snapshot ∧
      entry.Serves now manager.maxDelta function start count ∧
      ∀ history result, Action.SeenAs manager.cache world.store now history →
        ((attempt ⟨engine, some manager, retry⟩ operation).Runs history result ↔
          history = [⟨.entries manager.cache, world.store⟩, ⟨.now, now⟩,
            ⟨.report (.servedFromCache function ⟨start, count⟩), ()⟩] ∧
          result = operation.valueOf (snapshot.cells.part
            (start.toNat - entry.block.range.first) count.toNat)) := by
  obtain ⟨before, entry, after, snapshot, hstore, -, hserves, hsnapshot, -, -, hlookup⟩ :=
    CacheManager.lookup?_of_covers hsession hcovers
  have hentry : entry ∈ world.store := by
    rw [hstore]
    exact List.mem_append_right _ List.mem_cons_self
  have hrange := CacheManager.of_eq_ok_of_covers hsession hcount hcovers
  refine ⟨entry, hentry, snapshot, hsnapshot, hserves, ?_⟩
  intro history result hseen
  rw [attempt_cached hreads, Action.runs_map_iff]
  constructor
  · intro hruns
    obtain ⟨inner, hread, rfl⟩ := hruns
    obtain ⟨rfl, rfl⟩ := (CacheManager.read_runs_of_some hrange hlookup hseen).mp hread
    exact ⟨rfl, rfl⟩
  · intro hserved
    obtain ⟨rfl, rfl⟩ := hserved
    exact ⟨_, (CacheManager.read_runs_of_some hrange hlookup hseen).mpr ⟨rfl, rfl⟩, rfl⟩

/-- A read that the cache does not cover is that of the plain device, after a look. -/
theorem attempt_missed (hreads : operation.Reads function start count)
    (hmissed : ¬ (count ≠ 0 ∧ world.store.Covers now manager.maxDelta function start count)) :
    ∃ looking, (∀ step ∈ looking, step.call.Looks manager.cache) ∧
      (∀ rest result, (attempt ⟨manager.engine, none, retry⟩ operation).Runs rest result →
        (attempt ⟨manager.engine, some manager, retry⟩ operation).Runs (looking ++ rest) result) ∧
      ∀ history result, Action.SeenAs manager.cache world.store now history →
        (attempt ⟨manager.engine, some manager, retry⟩ operation).Runs history result →
        ∃ rest, history = looking ++ rest ∧
          (attempt ⟨manager.engine, none, retry⟩ operation).Runs rest result := by
  obtain ⟨looking, hlooks, hforth, hback⟩ := CacheManager.read_runs_of_none hmissed
  rw [attempt_cached hreads, attempt_plain hreads]
  refine ⟨looking, hlooks, ?_, ?_⟩
  · intro rest result hplain
    obtain ⟨inner, hsubmit, rfl⟩ := Action.runs_map_iff.mp hplain
    exact Action.runs_map_iff.mpr ⟨inner, hforth rest inner hsubmit, rfl⟩
  · intro history result hseen hcached
    obtain ⟨inner, hread, rfl⟩ := Action.runs_map_iff.mp hcached
    obtain ⟨rest, rfl, hsubmit⟩ := hback history inner hseen hread
    exact ⟨rest, rfl, Action.runs_map_iff.mpr ⟨inner, hsubmit, rfl⟩⟩

/-- No entry serves a read that is refused: its block would fit in one frame, and so would the
read. -/
theorem not_covered_of_refused {cause : InvalidRequest} {maxDelta : Duration}
    (hsession : task.Session progress world)
    (hrequest : function.request start count = .error cause) :
    ¬ (count ≠ 0 ∧ world.store.Covers now maxDelta function start count) := by
  intro h
  have hok := CacheFunction.request_of_fits (fits_of_covers hsession h.1 h.2)
  rw [hrequest] at hok
  cases hok

/-- What the plain device refuses the cached one refuses too, after no more than a look. -/
theorem attempt_refused {cause : InvalidRequest} (hsession : task.Session progress world)
    (hreads : operation.Reads function start count)
    (hrequest : function.request start count = .error cause) :
    ∃ looking, (∀ step ∈ looking, step.call.Looks manager.cache) ∧
      ∀ history result, Action.SeenAs manager.cache world.store now history →
        ((attempt ⟨manager.engine, some manager, retry⟩ operation).Runs history result ↔
          history = looking ∧ result = .error (.badRequest cause)) := by
  have hplain : attempt ⟨manager.engine, none, retry⟩ operation =
      pure (.error (.badRequest cause)) := by
    rw [attempt_plain hreads, hrequest]
    rfl
  obtain ⟨looking, hlooks, hforth, hback⟩ :=
    attempt_missed hreads (not_covered_of_refused hsession hrequest)
  rw [hplain] at hforth hback
  refine ⟨looking, hlooks, ?_⟩
  intro history result hseen
  constructor
  · intro hcached
    obtain ⟨rest, rfl, hrest⟩ := hback history result hseen hcached
    obtain ⟨rfl, rfl⟩ := Action.runs_pure_iff.mp hrest
    exact ⟨List.append_nil _, rfl⟩
  · intro h
    obtain ⟨rfl, rfl⟩ := h
    have hcached := hforth [] _ (.done _)
    rw [List.append_nil] at hcached
    exact hcached

/-! ### One coil and a range of one coil -/

/-- A state is the only one of a range, or both reads have failed alike. -/
def OnlyOf (single all : Except RequestError Value) : Prop :=
  (∃ state, all = .ok (.bits [state]) ∧ single = .ok (.bit state)) ∨
    ∃ error, all = .error error ∧ single = .error error

theorem exists_state {cells : Cells} (hareOf : cells.AreOf .readMultipleCoils)
    (hlength : cells.length = 1) : ∃ state, cells = .bits [state] := by
  cases cells with
  | registers contents => exact hareOf.elim
  | bits states =>
    obtain ⟨state, rfl⟩ := List.length_eq_one_iff.mp hlength
    exact ⟨state, rfl⟩

/-- What reads one coil as a range makes the state of it. -/
theorem runs_only_iff {action : Action (Except RequestError Cells)} {address : UInt16}
    (hone : ∀ cells, action.Runs history (.ok cells) → ∃ state, cells = .bits [state]) :
    ((·.bind (Operation.readCoil address).valueOf) <$> action).Runs history result ↔
      ∃ all, ((·.bind (Operation.readCoils address 1).valueOf) <$> action).Runs history all ∧
        OnlyOf result all := by
  simp only [Action.runs_map_iff]
  constructor
  · intro h
    obtain ⟨inner, hruns, rfl⟩ := h
    refine ⟨_, ⟨inner, hruns, rfl⟩, ?_⟩
    cases inner with
    | error error => exact .inr ⟨error, rfl, rfl⟩
    | ok cells =>
      obtain ⟨state, rfl⟩ := hone cells hruns
      exact .inl ⟨state, rfl, rfl⟩
  · intro h
    obtain ⟨all, ⟨inner, hruns, rfl⟩, honly⟩ := h
    refine ⟨inner, hruns, ?_⟩
    cases inner with
    | error error =>
      cases honly with
      | inl hstate => cases hstate.choose_spec.1
      | inr herror =>
        obtain ⟨_, heq, rfl⟩ := herror
        cases heq
        rfl
    | ok cells =>
      obtain ⟨state, rfl⟩ := hone cells hruns
      cases honly with
      | inl hstate =>
        obtain ⟨_, heq, rfl⟩ := hstate
        cases heq
        rfl
      | inr herror => cases herror.choose_spec.1

theorem submit_one {address : UInt16} (cells : Cells)
    (h : (engine.submit (CacheFunction.readMultipleCoils.request address 1)).Runs history
      (.ok cells)) : ∃ state, cells = .bits [state] := by
  obtain ⟨-, hareOf, hlength⟩ := (Engine.submit_does.of_runs h).2 cells rfl
  exact exists_state hareOf hlength

theorem read_one {address : UInt16} (hsession : task.Session progress world)
    (hseen : Action.SeenAs manager.cache world.store now history) (cells : Cells)
    (h : (manager.read .readMultipleCoils address 1).Runs history (.ok cells)) :
    ∃ state, cells = .bits [state] := by
  by_cases hserved : (1 : UInt16) ≠ 0 ∧
      world.store.Covers now manager.maxDelta .readMultipleCoils address 1
  · -- the part of the snapshot has one element, and it is a state
    obtain ⟨hcount, hcovers⟩ := hserved
    obtain ⟨_, entry, _, snapshot, -, -, hserves, -, hholds, hfits, hlookup⟩ :=
      CacheManager.lookup?_of_covers hsession hcovers
    have hareOf := hholds.areOf
    rw [hserves.function_eq] at hareOf
    have hrange := CacheManager.of_eq_ok_of_covers hsession hcount hcovers
    obtain ⟨-, hcells⟩ := (CacheManager.read_runs_of_some hrange hlookup hseen).mp h
    cases hcells
    exact exists_state hareOf.part (Cells.length_part hfits)
  · obtain ⟨looking, -, -, hback⟩ := CacheManager.read_runs_of_none hserved
    obtain ⟨rest, -, hsubmit⟩ := hback history _ hseen h
    exact submit_one cells hsubmit

/-- Whatever has come of a cache, a read of the device with it is served from a snapshot that is
young enough, or is the read of the device without it: the same calls, with the same answers, lead
to the same result. What the latter refuses the former refuses alike. On both devices the state of
a coil is the only one of the range of this coil. -/
theorem attempt_refines {created : List Action.Step}
    (hcreated : (config.create engine).Runs created (manager, task))
    (hsession : task.Session progress world) (retry : RetryPolicy) (now : Instant) :
    (∀ operation function start count, operation.Reads function start count →
      ((∃ entry ∈ world.store, ∃ snapshot, entry.snapshot = some snapshot ∧
        entry.Serves now config.maxDelta function start count ∧
        ∀ history result, Action.SeenAs manager.cache world.store now history →
          ((attempt ⟨engine, some manager, retry⟩ operation).Runs history result ↔
            history = [⟨.entries manager.cache, world.store⟩, ⟨.now, now⟩,
              ⟨.report (.servedFromCache function ⟨start, count⟩), ()⟩] ∧
            result = operation.valueOf (snapshot.cells.part
              (start.toNat - entry.block.range.first) count.toNat))) ∨
      ¬ (count ≠ 0 ∧ world.store.Covers now config.maxDelta function start count) ∧
      ∃ looking, (∀ step ∈ looking, step.call.Looks manager.cache) ∧
        (∀ rest result, (attempt ⟨engine, none, retry⟩ operation).Runs rest result →
          (attempt ⟨engine, some manager, retry⟩ operation).Runs (looking ++ rest) result) ∧
        ∀ history result, Action.SeenAs manager.cache world.store now history →
          (attempt ⟨engine, some manager, retry⟩ operation).Runs history result →
          ∃ rest, history = looking ++ rest ∧
            (attempt ⟨engine, none, retry⟩ operation).Runs rest result) ∧
      ∀ rest cause, (attempt ⟨engine, none, retry⟩ operation).Runs rest
          (.error (.badRequest cause)) → rest = [] ∧
        ∀ history result, Action.SeenAs manager.cache world.store now history →
          (attempt ⟨engine, some manager, retry⟩ operation).Runs history result →
          result = .error (.badRequest cause) ∧
            ∀ step ∈ history, step.call.Looks manager.cache) ∧
    ∀ address history result,
      ((attempt ⟨engine, none, retry⟩ (.readCoil address)).Runs history result ↔
        ∃ all, (attempt ⟨engine, none, retry⟩ (.readCoils address 1)).Runs history all ∧
          OnlyOf result all) ∧
      (Action.SeenAs manager.cache world.store now history →
        ((attempt ⟨engine, some manager, retry⟩ (.readCoil address)).Runs history result ↔
          ∃ all, (attempt ⟨engine, some manager, retry⟩ (.readCoils address 1)).Runs history all ∧
            OnlyOf result all)) := by
  obtain ⟨cache, hmanager, -⟩ := CacheManager.created_eq hcreated
  have hengine : engine = manager.engine := by rw [hmanager]
  have hdelta : config.maxDelta = manager.maxDelta := by rw [hmanager]
  rw [hengine, hdelta]
  constructor
  · intro operation function start count hreads
    constructor
    · by_cases h : count ≠ 0 ∧ world.store.Covers now manager.maxDelta function start count
      · exact .inl (attempt_served hsession hreads h.1 h.2)
      · exact .inr ⟨h, attempt_missed hreads h⟩
    · intro rest cause hplain
      obtain ⟨hrequest, hrest⟩ := refused_of_badRequest hreads hplain
      obtain ⟨looking, hlooks, hruns⟩ := attempt_refused hsession hreads hrequest
      refine ⟨hrest, ?_⟩
      intro history result hseen hcached
      obtain ⟨rfl, hresult⟩ := (hruns history result hseen).mp hcached
      exact ⟨hresult, hlooks⟩
  · intro address history result
    rw [attempt_plain (.coil address), attempt_plain (.coils address 1),
      attempt_cached (.coil address), attempt_cached (.coils address 1)]
    exact ⟨runs_only_iff submit_one, fun hseen => runs_only_iff (read_one hsession hseen)⟩

/-- The second of two polled registers is read from the cache. -/
theorem attempt_refines_register :
    let block : CacheBlock := ⟨.readHoldingRegisters, ⟨10, 2⟩⟩
    let config : CacheConfig := ⟨[block], Duration.ofSeconds 1, none⟩
    let engine : Engine := ⟨⟨1⟩, .tcp, 0⟩
    let manager : CacheManager := ⟨engine, 0, [block], config.maxDelta⟩
    let task : PollTask := ⟨engine, 0, [block], Duration.ofSeconds 1⟩
    let world : CacheWorld := ⟨0, [⟨block, some ⟨.registers [7, 8], 0⟩⟩]⟩
    (config.create engine).Runs [⟨.newCache [block], (0 : Nat)⟩] (manager, task) ∧
    task.Session ⟨[⟨0, .ok ⟨.registers [7, 8], 0⟩⟩], none⟩ world ∧
    ∀ history result, Action.SeenAs manager.cache world.store 0 history →
      (attempt ⟨engine, some manager, {}⟩ (.readHoldingRegisters 11 1)).Runs history result →
      result = .ok (.registers [8]) := by
  intro block config engine manager task world
  have hcreated : (config.create engine).Runs [⟨.newCache [block], (0 : Nat)⟩] (manager, task) :=
    .ask (.done _)
  refine ⟨hcreated, CacheManager.session_registers, ?_⟩
  intro history result hseen hcached
  have hcovers : world.store.Covers 0 config.maxDelta .readHoldingRegisters 11 1 :=
    ⟨_, List.mem_singleton_self _, rfl, by decide, by decide, _, rfl, Nat.zero_le _⟩
  obtain ⟨hreads, -⟩ := attempt_refines hcreated CacheManager.session_registers {} 0
  cases (hreads _ _ _ _ (.holdingRegisters 11 1)).1 with
  | inl hserved =>
    obtain ⟨entry, hentry, snapshot, hsnapshot, -, hruns⟩ := hserved
    cases List.mem_singleton.mp hentry
    cases hsnapshot
    exact ((hruns history result hseen).mp hcached).2
  | inr hmissed => exact absurd ⟨by decide, hcovers⟩ hmissed.1

end Device

end ModbusMaster
