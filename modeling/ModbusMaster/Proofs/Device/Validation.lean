import ModbusMaster.Proofs.Device.Refinement

/-!
The checks of arguments. An operation is refused exactly when a count that it carries is not
allowed. It is then refused on every way it can take, without a call to the medium and without
another attempt. An operation that is not refused fits in a frame.
-/

namespace ModbusMaster

/-- A count that an operation carries, with the address it starts at and the limit of its kind. -/
structure Count where
  start : UInt16
  number : Nat
  limit : UInt16

namespace Count

variable {start limit : UInt16}

structure Allowed (count : Count) : Prop where
  fits_word : count.number ≤ 65535
  ne_zero : count.number ≠ 0
  stop_le : count.start.toNat + count.number ≤ 65536
  within_limit : count.number ≤ count.limit.toNat

/-- The first check that a count does not pass. -/
def violation? (count : Count) : Option InvalidRequest :=
  if 65535 < count.number then some (.countTooBigForWord count.number)
  else if count.number = 0 then some (.badRange .countOfZero)
  else if 65536 < count.start.toNat + count.number then
    some (.badRange (.addressOverflow count.start (UInt16.ofNat count.number)))
  else if count.limit.toNat < count.number then
    some (.badRange (.countTooLargeForType (UInt16.ofNat count.number) count.limit))
  else none

theorem violation?_eq_none_iff {count : Count} : count.violation? = none ↔ count.Allowed := by
  unfold violation?
  constructor
  · intro h
    by_cases hword : 65535 < count.number
    · rw [if_pos hword] at h
      cases h
    by_cases hzero : count.number = 0
    · rw [if_neg hword, if_pos hzero] at h
      cases h
    by_cases hstop : 65536 < count.start.toNat + count.number
    · rw [if_neg hword, if_neg hzero, if_pos hstop] at h
      cases h
    by_cases hlimit : count.limit.toNat < count.number
    · rw [if_neg hword, if_neg hzero, if_neg hstop, if_pos hlimit] at h
      cases h
    exact ⟨by omega, hzero, by omega, by omega⟩
  · intro h
    rw [if_neg (Nat.not_lt.mpr h.fits_word), if_neg h.ne_zero, if_neg (Nat.not_lt.mpr h.stop_le),
      if_neg (Nat.not_lt.mpr h.within_limit)]

theorem valuesRefusal?_eq (values : Nat) :
    Operation.valuesRefusal? limit start values = violation? ⟨start, values, limit⟩ := by
  unfold Operation.valuesRefusal? Operation.rangeRefusal? violation?
  by_cases hword : 65535 < values
  · rw [if_pos hword, if_pos hword]
  · have hvalues : (UInt16.ofNat values).toNat = values :=
      UInt16.toNat_ofNat_of_lt' (show values < 65536 by omega)
    rw [if_neg hword, if_neg hword, hvalues]

/-- A word is never too big for a word. -/
theorem rangeRefusal?_eq (count : UInt16) :
    Operation.rangeRefusal? limit start count = violation? ⟨start, count.toNat, limit⟩ := by
  have hcount : count.toNat < 65536 := count.toNat_lt
  rw [← valuesRefusal?_eq, Operation.valuesRefusal?, if_neg (by omega), UInt16.ofNat_toNat]

end Count

namespace Operation

variable {operation : Operation}

/-- The counts that an operation carries, in the order in which they are checked. -/
def counts : Operation → List Count
  | readCoils start count | readDiscreteInputs start count => [⟨start, count.toNat, 2000⟩]
  | readHoldingRegisters start count | readInputRegisters start count =>
      [⟨start, count.toNat, 120⟩]
  | writeCoils start states => [⟨start, states.length, 1968⟩]
  | writeRegisters start contents => [⟨start, contents.length, 120⟩]
  | readWriteRegisters readStart readCount writeStart contents =>
      [⟨readStart, readCount.toNat, 120⟩, ⟨writeStart, contents.length, 120⟩]
  | _ => []

theorem findSome?_singleton (count : Count) :
    [count].findSome? Count.violation? = count.violation? := by
  rw [List.findSome?_cons]
  cases count.violation? <;> rfl

theorem refusal?_eq (operation : Operation) :
    operation.refusal? = operation.counts.findSome? Count.violation? := by
  cases operation with
  | readCoils start count | readDiscreteInputs start count =>
    exact (Count.rangeRefusal?_eq count).trans (findSome?_singleton _).symm
  | readHoldingRegisters start count | readInputRegisters start count =>
    exact (Count.rangeRefusal?_eq count).trans (findSome?_singleton _).symm
  | writeCoils start states =>
    exact (Count.valuesRefusal?_eq _).trans (findSome?_singleton _).symm
  | writeRegisters start contents =>
    exact (Count.valuesRefusal?_eq _).trans (findSome?_singleton _).symm
  | readWriteRegisters readStart readCount writeStart contents =>
    show (rangeRefusal? 120 readStart readCount).or _ = List.findSome? _ [_, _]
    rw [Count.rangeRefusal?_eq, Count.valuesRefusal?_eq, List.findSome?_cons, findSome?_singleton]
    cases Count.violation? ⟨readStart, readCount.toNat, 120⟩ <;> rfl
  | _ => rfl

theorem counts_allowed_iff :
    operation.counts.findSome? Count.violation? = none ↔
      ∀ count ∈ operation.counts, count.Allowed := by
  rw [List.findSome?_eq_none_iff]
  constructor
  · intro h count hcount
    exact Count.violation?_eq_none_iff.mp (h count hcount)
  · intro h count hcount
    exact Count.violation?_eq_none_iff.mpr (h count hcount)

end Operation

/-- The function of what is put on the medium. -/
def Demand.function : Demand → Function
  | exchange request => request.function
  | broadcast function _ => function

/-- The payload of what is put on the medium. -/
def Demand.payload : Demand → Bytes
  | exchange request => request.payload
  | broadcast _ payload => payload

theorem Frame.length_requestFrame {protocol : Protocol} {unit : UnitId} {function : UInt8}
    {payload : Bytes} (h : payload.length ≤ 253) :
    (requestFrame protocol unit function payload).length ≤ 512 := by
  cases protocol with
  | rtu =>
    show (unit.value :: function :: payload ++ littleEndian _).length ≤ 512
    rw [List.length_append, length_littleEndian, List.length_cons, List.length_cons]
    omega
  | tcp =>
    show ([_, _, _, _, _, _, _, _] ++ payload).length ≤ 512
    rw [List.length_append]
    show 8 + payload.length ≤ 512
    omega

variable {operation : Operation} {cause : InvalidRequest}

/-- What an operation that is not refused demands fits in a frame. -/
theorem Operation.exists_demand (h : operation.refusal? = none) :
    ∃ demand, operation.demand = .ok demand ∧ demand.payload.length ≤ 253 := by
  cases operation.demanded Image.blank with
  | refused refusal demand =>
    rw [h] at refusal
    cases refusal
  | exchange refusal demand served => exact ⟨_, demand, served.payload_le⟩
  | broadcast refusal demand answer served => exact ⟨_, demand, served.payload_le⟩

namespace Engine

variable {engine : Engine}

theorem perform_refused (h : operation.refusal? = some cause) :
    engine.perform operation = pure (.error (.badRequest cause)) := by
  cases operation.demanded Image.blank with
  | refused refusal demand =>
    rw [h] at refusal
    cases refusal
    rw [perform, demand]
  | exchange refusal => rw [h] at refusal; cases refusal
  | broadcast refusal => rw [h] at refusal; cases refusal

theorem perform_does (h : operation.refusal? = none) :
    (engine.perform operation).Does Call.OfExchange Accepted := by
  cases operation.demanded Image.blank with
  | refused refusal demand =>
    rw [h] at refusal
    cases refusal
  | exchange refusal demand served =>
    rw [perform, demand]
    exact (execute_does served.sized).mono fun _ hresult => hresult.1
  | broadcast refusal demand answer served =>
    rw [perform, demand]
    apply (sendTo_does served.payload_le).bind
    intro result hresult
    cases result with
    | ok _ => exact trivial
    | error error => exact hresult

end Engine

/-! ### Attempts -/

namespace RetryPolicy

variable {α : Type} {pause : Duration} {policy : RetryPolicy}
  {action : Action (Except RequestError α)} {error : RequestError} {history : List Action.Step}
  {result : Except RequestError α}

/-- A failure that is not worth another attempt is the only one. -/
theorem attempts_runs_iff (herror : error.isTransient = false)
    (h : ∀ first outcome, first <+: history → action.Runs first outcome →
      outcome = .error error) (left : Nat) :
    (attempts pause action left).Runs history result ↔ action.Runs history result := by
  cases left with
  | zero => exact Iff.rfl
  | succ left =>
    constructor
    · intro hruns
      obtain ⟨first, second, outcome, rfl, hfirst, hsecond⟩ := Action.runs_bind_iff.mp hruns
      have houtcome := h first outcome (List.prefix_append first second) hfirst
      subst houtcome
      simp only [herror, Bool.false_eq_true, if_false] at hsecond
      obtain ⟨rfl, rfl⟩ := Action.runs_pure_iff.mp hsecond
      rw [List.append_nil]
      exact hfirst
    · intro hruns
      have hresult := h history result (List.prefix_refl history) hruns
      subst hresult
      apply Action.runs_bind_iff.mpr
      refine ⟨history, [], _, (List.append_nil _).symm, hruns, ?_⟩
      simp only [herror, Bool.false_eq_true, if_false]
      exact .done _

theorem attempts_refused (herror : error.isTransient = false) (left : Nat) :
    attempts pause (pure (.error error) : Action (Except RequestError α)) left =
      pure (.error error) := by
  cases left with
  | zero => rfl
  | succ left =>
    show (if error.isTransient then _ else (pure (.error error) : Action (Except _ α))) = _
    rw [herror]
    rfl

/-- The last attempt has the last word. -/
theorem attempts_does {post : Except RequestError α → Prop}
    (h : action.Does (fun _ => True) post) (left : Nat) :
    (attempts pause action left).Does (fun _ => True) post := by
  induction left with
  | zero => exact h
  | succ left ih =>
    apply h.bind
    intro outcome houtcome
    cases outcome with
    | ok value => exact houtcome
    | error error =>
      show (if error.isTransient then _ else (pure (.error error) : Action (Except _ α))).Does _ _
      by_cases htransient : error.isTransient
      · rw [if_pos htransient]
        apply Action.does_perform_bind.mpr
        refine ⟨trivial, fun _ => ?_⟩
        by_cases hpause : pause ≠ 0
        · rw [if_pos hpause]
          exact ⟨trivial, fun _ => ih⟩
        · rw [if_neg hpause]
          exact ih
      · rw [if_neg htransient]
        exact houtcome

end RetryPolicy

/-- What no cache answers: it is asked of the equipment on every device. -/
def Operation.Plain (operation : Operation) : Prop :=
  ∀ device : Device, device.attempt operation = device.engine.perform operation

theorem Action.SeenAs.of_start {cache : Handle} {store : CacheStore} {now : Instant}
    {first history : List Action.Step} (h : SeenAs cache store now history)
    (hstart : first <+: history) : SeenAs cache store now first := by
  intro seen time rest hfirst
  obtain ⟨second, rfl⟩ := hstart
  rw [hfirst] at h
  exact h seen time (rest ++ second) rfl

namespace Device

variable {engine : Engine} {manager : CacheManager} {retry : RetryPolicy} {task : PollTask}
  {progress : Progress} {world : CacheWorld} {now : Instant}

theorem reads_or_plain (operation : Operation) :
    (∃ function start count, operation.Reads function start count) ∨ operation.Plain := by
  cases operation with
  | readCoil address => exact .inl ⟨_, _, _, .coil address⟩
  | readCoils start count => exact .inl ⟨_, _, _, .coils start count⟩
  | readDiscreteInputs start count => exact .inl ⟨_, _, _, .discreteInputs start count⟩
  | readHoldingRegisters start count => exact .inl ⟨_, _, _, .holdingRegisters start count⟩
  | readInputRegisters start count => exact .inl ⟨_, _, _, .inputRegisters start count⟩
  | _ =>
    refine .inr fun device => ?_
    obtain ⟨engine, cache, retry⟩ := device
    cases cache <;> rfl

theorem attempt_eq_perform :
    attempt ⟨engine, none, retry⟩ operation = engine.perform operation := by
  cases operation <;> rfl

/-- The request of a read is refused as the read is. -/
theorem request_refused_iff {function : CacheFunction} {start count : UInt16}
    (hreads : operation.Reads function start count) :
    function.request start count = .error cause ↔ operation.refusal? = some cause := by
  -- any engine tells which operations are refused
  let engine : Engine := ⟨UnitId.broadcast, .rtu, 0⟩
  have hplain : engine.perform operation =
      (·.bind operation.valueOf) <$> engine.submit (function.request start count) := by
    have hattempt : attempt ⟨engine, none, {}⟩ operation = _ := attempt_plain hreads
    rw [← hattempt, attempt_eq_perform]
  constructor
  · intro hrequest
    rw [hrequest] at hplain
    cases hrefusal : operation.refusal? with
    | none =>
      have hdoes : (engine.perform operation).Does _ _ := Engine.perform_does hrefusal
      rw [hplain] at hdoes
      exact (hdoes trivial).elim
    | some other =>
      rw [Engine.perform_refused hrefusal] at hplain
      cases hplain
      rfl
  · intro hrefusal
    have hruns : (attempt ⟨engine, none, {}⟩ operation).Runs [] (.error (.badRequest cause)) := by
      rw [attempt_eq_perform, Engine.perform_refused hrefusal]
      exact .done _
    exact (refused_of_badRequest hreads hruns).1

theorem perform_refused (h : operation.refusal? = some cause) :
    perform ⟨engine, none, retry⟩ operation = pure (.error (.badRequest cause)) := by
  rw [perform, RetryPolicy.run, attempt_eq_perform, Engine.perform_refused h]
  exact RetryPolicy.attempts_refused rfl _

/-- With a cache no more than a look at its entries is added. -/
theorem perform_cached_refused (hsession : task.Session progress world)
    (h : operation.refusal? = some cause) :
    ∃ looking, (∀ step ∈ looking, step.call.Looks manager.cache) ∧
      ∀ history result, Action.SeenAs manager.cache world.store now history →
        ((perform ⟨manager.engine, some manager, retry⟩ operation).Runs history result ↔
          history = looking ∧ result = .error (.badRequest cause)) := by
  have hattempt : ∃ looking, (∀ step ∈ looking, step.call.Looks manager.cache) ∧
      ∀ history result, Action.SeenAs manager.cache world.store now history →
        ((attempt ⟨manager.engine, some manager, retry⟩ operation).Runs history result ↔
          history = looking ∧ result = .error (.badRequest cause)) := by
    cases reads_or_plain operation with
    | inl hreads =>
      obtain ⟨function, start, count, hreads⟩ := hreads
      exact attempt_refused hsession hreads ((request_refused_iff hreads).mpr h)
    | inr hplain =>
      refine ⟨[], List.forall_mem_nil _, ?_⟩
      intro history result _
      rw [hplain, Engine.perform_refused h]
      exact Action.runs_pure_iff
  obtain ⟨looking, hlooks, hruns⟩ := hattempt
  refine ⟨looking, hlooks, ?_⟩
  intro history result hseen
  have hfirst : ∀ first outcome, first <+: history →
      (attempt ⟨manager.engine, some manager, retry⟩ operation).Runs first outcome →
        outcome = .error (.badRequest cause) := by
    intro first outcome hstart hfirst
    exact ((hruns first outcome (hseen.of_start hstart)).mp hfirst).2
  rw [← hruns history result hseen]
  exact RetryPolicy.attempts_runs_iff rfl hfirst _

theorem attempt_does {cache : Option CacheManager} (h : operation.refusal? = none) :
    (attempt ⟨engine, cache, retry⟩ operation).Does (fun _ => True) Accepted := by
  have hperform : (engine.perform operation).Does (fun _ => True) Accepted :=
    (Engine.perform_does h).mono_calls fun _ _ => trivial
  cases cache with
  | none =>
    rw [attempt_eq_perform]
    exact hperform
  | some manager =>
    cases reads_or_plain operation with
    | inr hplain =>
      rw [hplain]
      exact hperform
    | inl hreads =>
      obtain ⟨function, start, count, hreads⟩ := hreads
      rw [attempt_cached hreads]
      have hread : (manager.read function start count).Does (fun _ => True) Accepted := by
        have hlook : (manager.cachedAt function start count).Does (fun _ => True) fun _ => True :=
          CacheManager.cachedAt_does.mono_calls fun _ (_ : ¬ Call.Publishes 0 _) => trivial
        apply hlook.bind
        intro served _
        cases served with
        | some cells => exact trivial
        | none =>
          cases hrequest : function.request start count with
          | error cause =>
            rw [(request_refused_iff hreads).mp hrequest] at h
            cases h
          | ok request =>
            obtain ⟨rfl, hfits⟩ := CacheFunction.request_eq_ok hrequest
            have hexecute : (manager.engine.execute (function.requestOf ⟨start, count⟩)).Does
                Call.OfExchange Accepted :=
              (Engine.execute_does (CacheFunction.requestOf_sized hfits)).mono fun _ h => h.1
            exact hexecute.mono_calls fun _ _ => trivial
      apply hread.bind
      intro result hresult
      cases result with
      | ok cells => exact Operation.valueOf_accepted cells
      | error error => exact hresult

theorem perform_does {cache : Option CacheManager} (h : operation.refusal? = none) :
    (perform ⟨engine, cache, retry⟩ operation).Does (fun _ => True) Accepted :=
  RetryPolicy.attempts_does (attempt_does h) _

/-- The checks of arguments are exact, and come before everything else. The first check that a
count does not pass is the result, of the engine and of a device, whether or not it has a cache
and however often it repeats what fails; nothing is done but to look at the entries of the cache.
If all counts are allowed, the frame fits in either framing, and nothing that comes of it says
that anything did not fit. -/
theorem validation_exact (engine : Engine) (retry : RetryPolicy) (operation : Operation) :
    (operation.counts.findSome? Count.violation? = none ↔
      ∀ count ∈ operation.counts, count.Allowed) ∧
    (∀ cause, operation.counts.findSome? Count.violation? = some cause →
      engine.perform operation = pure (.error (.badRequest cause)) ∧
      perform ⟨engine, none, retry⟩ operation = pure (.error (.badRequest cause)) ∧
      ∀ (config : CacheConfig) created manager task progress (world : CacheWorld) now,
        (config.create engine).Runs created (manager, task) → task.Session progress world →
        ∃ looking, (∀ step ∈ looking, step.call.Looks manager.cache) ∧
          ∀ history result, Action.SeenAs manager.cache world.store now history →
            ((perform ⟨engine, some manager, retry⟩ operation).Runs history result ↔
              history = looking ∧ result = .error (.badRequest cause))) ∧
    ((∀ count ∈ operation.counts, count.Allowed) →
      (∃ demand, operation.demand = .ok demand ∧ ∀ protocol unit, ∃ frame,
        Frame.encode protocol unit demand.function.code demand.payload = .ok frame ∧
          frame.length ≤ 512) ∧
      (∀ history result, (engine.perform operation).Runs history result → Accepted result) ∧
      ∀ cache history result,
        (perform ⟨engine, cache, retry⟩ operation).Runs history result → Accepted result) := by
  refine ⟨Operation.counts_allowed_iff, ?refused, ?accepted⟩
  case refused =>
    intro cause hviolation
    have hrefusal := (Operation.refusal?_eq operation).trans hviolation
    refine ⟨Engine.perform_refused hrefusal, perform_refused hrefusal, ?_⟩
    intro config created manager task progress world now hcreated hsession
    obtain ⟨cache, hmanager, -⟩ := CacheManager.created_eq hcreated
    have hengine : engine = manager.engine := by rw [hmanager]
    rw [hengine]
    exact perform_cached_refused hsession hrefusal
  case accepted =>
    intro hallowed
    have hrefusal : operation.refusal? = none :=
      (Operation.refusal?_eq operation).trans (Operation.counts_allowed_iff.mpr hallowed)
    refine ⟨?_, ?_, ?_⟩
    · obtain ⟨demand, hdemand, hpayload⟩ := Operation.exists_demand hrefusal
      refine ⟨demand, hdemand, ?_⟩
      intro protocol unit
      exact ⟨_, Frame.encode_eq_ok protocol hpayload, Frame.length_requestFrame hpayload⟩
    · intro history result hruns
      exact ((Engine.perform_does hrefusal).of_runs hruns).2
    · intro cache history result hruns
      exact ((perform_does hrefusal).of_runs hruns).2

/-- One register more than a request may ask for, with a cache and five attempts; and as many as
it may ask for. -/
theorem validation_exact_registers :
    let engine : Engine := ⟨⟨1⟩, .tcp, 0⟩
    let block : CacheBlock := ⟨.readHoldingRegisters, ⟨10, 2⟩⟩
    let config : CacheConfig := ⟨[block], Duration.ofSeconds 1, none⟩
    let manager : CacheManager := ⟨engine, 0, [block], config.maxDelta⟩
    let world : CacheWorld := ⟨0, [⟨block, some ⟨.registers [7, 8], 0⟩⟩]⟩
    let cause : InvalidRequest := .badRange (.countTooLargeForType 121 120)
    engine.perform (.readHoldingRegisters 10 121) = pure (.error (.badRequest cause)) ∧
    (∃ looking, (∀ step ∈ looking, step.call.Looks 0) ∧
      ∀ history result, Action.SeenAs 0 world.store 0 history →
        ((perform ⟨engine, some manager, ⟨5, 0⟩⟩ (.readHoldingRegisters 10 121)).Runs
          history result ↔ history = looking ∧ result = .error (.badRequest cause))) ∧
    ∀ history result,
      (perform ⟨engine, none, ⟨5, 0⟩⟩ (.readHoldingRegisters 65416 120)).Runs history result →
        Accepted result := by
  intro engine block config manager world cause
  have hcreated : (config.create engine).Runs [⟨.newCache [block], (0 : Nat)⟩]
      (manager, ⟨engine, 0, [block], Duration.ofSeconds 1⟩) := .ask (.done _)
  obtain ⟨-, hrefused, -⟩ := validation_exact engine ⟨5, 0⟩ (.readHoldingRegisters 10 121)
  obtain ⟨hengine, -, hcached⟩ := hrefused cause rfl
  obtain ⟨-, -, haccepted⟩ := validation_exact engine ⟨5, 0⟩ (.readHoldingRegisters 65416 120)
  have hallowed : ∀ count ∈ (Operation.readHoldingRegisters 65416 120).counts, count.Allowed := by
    intro count hcount
    cases List.mem_singleton.mp hcount
    exact ⟨by decide, by decide, by decide, by decide⟩
  refine ⟨hengine, ?_, (haccepted hallowed).2.2 none⟩
  exact hcached config _ manager _ _ world 0 hcreated CacheManager.session_registers

end Device

end ModbusMaster
