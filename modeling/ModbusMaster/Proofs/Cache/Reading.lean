import ModbusMaster.Proofs.Cache.Polling

/-!
Reads through a cache. A read is served by the first entry whose block has all its cells and whose
snapshot is young enough; what it gets is a part of that snapshot.
-/

namespace ModbusMaster

/-! ### Entries that serve -/

namespace CacheEntry

variable {entry : CacheEntry} {now : Instant} {maxDelta : Duration} {function : CacheFunction}
  {range : AddressRange} {start count : UInt16}

/-- The block has all the cells of a read in it, and its snapshot is at most `maxDelta` old. -/
structure Serves (entry : CacheEntry) (now : Instant) (maxDelta : Duration)
    (function : CacheFunction) (start count : UInt16) : Prop where
  function_eq : entry.block.function = function
  first_le : entry.block.range.first ≤ start.toNat
  le_stop : start.toNat + count.toNat ≤ entry.block.range.stop
  fresh : ∃ snapshot, entry.snapshot = some snapshot ∧ now - snapshot.taken ≤ maxDelta

/-- What an entry makes of a read. -/
def answer? (entry : CacheEntry) (now : Instant) (maxDelta : Duration) (function : CacheFunction)
    (range : AddressRange) : Option Cells :=
  if entry.block.covers function range then entry.lookup? now maxDelta range else none

theorem covers_iff : entry.block.covers function ⟨start, count⟩ = true ↔
    entry.block.function = function ∧ entry.block.range.first ≤ start.toNat ∧
      start.toNat + count.toNat ≤ entry.block.range.stop := by
  unfold CacheBlock.covers AddressRange.contains
  rw [Bool.and_eq_true, Bool.and_eq_true, beq_iff_eq, decide_eq_true_iff, decide_eq_true_iff]
  exact Iff.rfl

theorem answer?_eq_none (h : ¬ entry.Serves now maxDelta function start count) :
    entry.answer? now maxDelta function ⟨start, count⟩ = none := by
  unfold answer?
  by_cases hcovers : entry.block.covers function ⟨start, count⟩ = true
  · rw [if_pos hcovers]
    obtain ⟨hfunction, hfirst, hstop⟩ := covers_iff.mp hcovers
    unfold lookup?
    cases hsnapshot : entry.snapshot with
    | none => rfl
    | some snapshot =>
      -- the block covers the read, so only the age of the snapshot can be wrong
      have hold : maxDelta < now - snapshot.taken := by
        apply Nat.lt_of_not_le
        intro hfresh
        exact h ⟨hfunction, hfirst, hstop, snapshot, hsnapshot, hfresh⟩
      exact if_pos hold
  · exact if_neg hcovers

/-- The offset of a read in a block that has all its cells in it, and the cells behind it. -/
theorem Serves.offset_le (h : entry.Serves now maxDelta function start count) :
    start.toNat - entry.block.range.first + count.toNat ≤ entry.block.range.count.toNat := by
  have hfirst := h.first_le
  have hstop := h.le_stop
  unfold AddressRange.first at hfirst ⊢
  unfold AddressRange.stop at hstop
  omega

theorem Serves.answer?_eq {snapshot : Snapshot} {clock : Instant}
    (h : entry.Serves now maxDelta function start count)
    (hsnapshot : entry.snapshot = some snapshot) (hholds : snapshot.Holds entry.block clock) :
    entry.answer? now maxDelta function ⟨start, count⟩ =
      some (snapshot.cells.part (start.toNat - entry.block.range.first) count.toNat) := by
  obtain ⟨young, hyoung, hfresh⟩ := h.fresh
  rw [hsnapshot] at hyoung
  cases hyoung
  have hfits : start.toNat - entry.block.range.first + count.toNat ≤ snapshot.cells.length := by
    rw [hholds.length]
    exact h.offset_le
  unfold answer? lookup?
  rw [if_pos (covers_iff.mpr ⟨h.function_eq, h.first_le, h.le_stop⟩), hsnapshot]
  exact (if_neg (Nat.not_lt.mpr hfresh)).trans (Cells.slice?_of_le hfits)

end CacheEntry

namespace CacheStore

variable {store : CacheStore} {now : Instant} {maxDelta : Duration} {function : CacheFunction}
  {start count : UInt16}

theorem lookup?_cons (entry : CacheEntry) (rest : CacheStore) (range : AddressRange) :
    lookup? (entry :: rest) now maxDelta function range =
      (entry.answer? now maxDelta function range).or
        (rest.lookup? now maxDelta function range) := by
  show List.findSome? (·.answer? now maxDelta function range) (entry :: rest) =
    (entry.answer? now maxDelta function range).or
      (rest.findSome? (·.answer? now maxDelta function range))
  rw [List.findSome?_cons]
  cases entry.answer? now maxDelta function range <;> rfl

/-- Some entry serves a read. -/
def Covers (store : CacheStore) (now : Instant) (maxDelta : Duration) (function : CacheFunction)
    (start count : UInt16) : Prop :=
  ∃ entry ∈ store, entry.Serves now maxDelta function start count

theorem lookup?_eq_none (h : ¬ store.Covers now maxDelta function start count) :
    store.lookup? now maxDelta function ⟨start, count⟩ = none := by
  apply List.findSome?_eq_none_iff.mpr
  intro entry hentry
  exact CacheEntry.answer?_eq_none fun hserves => h ⟨entry, hentry, hserves⟩

/-- Of the entries that serve a read there is a first one. -/
theorem Covers.exists_first (h : store.Covers now maxDelta function start count) :
    ∃ before entry after, store = before ++ entry :: after ∧
      (∀ earlier ∈ before, ¬ earlier.Serves now maxDelta function start count) ∧
      entry.Serves now maxDelta function start count := by
  induction store with
  | nil =>
    obtain ⟨entry, hentry, -⟩ := h
    cases hentry
  | cons head rest ih =>
    by_cases hhead : head.Serves now maxDelta function start count
    · exact ⟨[], head, rest, rfl, List.forall_mem_nil _, hhead⟩
    · obtain ⟨entry, hentry, hserves⟩ := h
      have hrest : entry ∈ rest := by
        cases hentry with
        | head => exact absurd hserves hhead
        | tail _ hrest => exact hrest
      obtain ⟨before, first, after, rfl, hbefore, hfirst⟩ := ih ⟨entry, hrest, hserves⟩
      exact ⟨head :: before, first, after, rfl, List.forall_mem_cons.mpr ⟨hhead, hbefore⟩, hfirst⟩

/-- An entry that does not serve a read leaves it to the entries behind it. -/
theorem lookup?_append {before rest : CacheStore}
    (h : ∀ earlier ∈ before, ¬ earlier.Serves now maxDelta function start count) :
    lookup? (before ++ rest) now maxDelta function ⟨start, count⟩ =
      rest.lookup? now maxDelta function ⟨start, count⟩ := by
  induction before with
  | nil => rfl
  | cons head before ih =>
    obtain ⟨hhead, hbefore⟩ := List.forall_mem_cons.mp h
    rw [List.cons_append, lookup?_cons, CacheEntry.answer?_eq_none hhead, Option.none_or]
    exact ih hbefore

/-- The first entry that serves a read answers it. -/
theorem lookup?_first {before after : CacheStore} {entry : CacheEntry} {snapshot : Snapshot}
    {clock : Instant}
    (hbefore : ∀ earlier ∈ before, ¬ earlier.Serves now maxDelta function start count)
    (hserves : entry.Serves now maxDelta function start count)
    (hsnapshot : entry.snapshot = some snapshot) (hholds : snapshot.Holds entry.block clock) :
    lookup? (before ++ entry :: after) now maxDelta function ⟨start, count⟩ =
      some (snapshot.cells.part (start.toNat - entry.block.range.first) count.toNat) := by
  rw [lookup?_append hbefore, lookup?_cons, hserves.answer?_eq hsnapshot hholds, Option.some_or]

end CacheStore

/-! ### Looking at the entries -/

/-- The calls by which the entries of a cache are looked at. -/
def Call.Looks (cache : Handle) : Call → Prop
  | .entries handle => handle = cache
  | .now | .report _ => True
  | _ => False

/-- Whoever looks at a cache first thing sees `store`, at the instant `now`. -/
def Action.SeenAs (cache : Handle) (store : CacheStore) (now : Instant) (history : List Step) :
    Prop :=
  ∀ seen time rest, history = ⟨.entries cache, seen⟩ :: ⟨.now, time⟩ :: rest →
    seen = store ∧ time = now

/-- Without the transport no request is answered. -/
theorem Engine.submit_ok {α : Type} {engine : Engine}
    {request : Except InvalidRequest (Request α)} {history : List Action.Step} {value : α}
    (h : (engine.submit request).Runs history (.ok value)) :
    ∃ transport rest, history = ⟨.acquireTransport engine.transport, transport⟩ :: rest := by
  cases request with
  | error cause => cases (Action.runs_pure_iff.mp h).2
  | ok request =>
    obtain ⟨first, second, result, rfl, hexchange, -⟩ := Action.runs_bind_iff.mp h
    obtain ⟨transport, rest, rfl, -⟩ := Action.runs_perform_bind_iff.mp hexchange
    exact ⟨transport, rest ++ second, rfl⟩

namespace CacheManager

variable {manager : CacheManager} {function : CacheFunction} {start count : UInt16}
  {range : AddressRange} {history : List Action.Step}

/-- The calls of a look at the entries. -/
def looks (manager : CacheManager) (store : CacheStore) (now : Instant)
    (function : CacheFunction) (range : AddressRange) : List Action.Step :=
  ⟨.entries manager.cache, store⟩ :: ⟨.now, now⟩ ::
    match store.lookup? now manager.maxDelta function range with
    | some _ => [⟨.report (.servedFromCache function range), ()⟩]
    | none => []

theorem looks_look {store : CacheStore} {now : Instant} :
    ∀ step ∈ manager.looks store now function range, step.call.Looks manager.cache := by
  intro step hstep
  cases hstep with
  | head => exact rfl
  | tail _ hstep =>
    cases hstep with
    | head => exact trivial
    | tail _ hstep =>
      split at hstep
      next =>
        cases List.mem_singleton.mp hstep
        exact trivial
      next => cases hstep

theorem cached_runs_iff {served : Option Cells} :
    (manager.cached function range).Runs history served ↔ ∃ store now,
      history = manager.looks store now function range ∧
        served = store.lookup? now manager.maxDelta function range := by
  unfold cached looks
  constructor
  · intro h
    obtain ⟨store, rest, rfl, hstore⟩ := Action.runs_perform_bind_iff.mp h
    obtain ⟨now, rest, rfl, hnow⟩ := Action.runs_perform_bind_iff.mp hstore
    refine ⟨store, now, ?_⟩
    split at hnow
    next hnone =>
      obtain ⟨rfl, rfl⟩ := Action.runs_pure_iff.mp hnow
      exact ⟨by rw [hnone], hnone.symm⟩
    next cells hsome =>
      obtain ⟨⟨⟩, rest, rfl, hreport⟩ := Action.runs_perform_bind_iff.mp hnow
      obtain ⟨rfl, rfl⟩ := Action.runs_pure_iff.mp hreport
      exact ⟨by rw [hsome], hsome.symm⟩
  · intro h
    obtain ⟨store, now, rfl, rfl⟩ := h
    apply Action.runs_perform_bind_iff.mpr
    refine ⟨store, _, rfl, Action.runs_perform_bind_iff.mpr ⟨now, _, rfl, ?_⟩⟩
    cases store.lookup? now manager.maxDelta function range with
    | none => exact .done none
    | some cells => exact .ask (.done _)

theorem cachedAt_of_error {cause : InvalidRange} (h : AddressRange.of start count = .error cause) :
    manager.cachedAt function start count = pure none := by
  rw [cachedAt, h]

theorem cachedAt_of_ok (h : AddressRange.of start count = .ok range) :
    manager.cachedAt function start count = manager.cached function range := by
  rw [cachedAt, h]

/-- A read whose start and count name no range looks at nothing. -/
theorem read_of_error {cause : InvalidRange} (h : AddressRange.of start count = .error cause) :
    manager.read function start count = pure (.error (.badRequest (.badRange cause))) := by
  rw [read, cachedAt_of_error h, CacheFunction.request_of_error h]
  rfl

/-- A read is a look at the entries, and a request if nothing is found. -/
theorem read_runs_iff {result : Except RequestError Cells}
    (h : AddressRange.of start count = .ok range) :
    (manager.read function start count).Runs history result ↔
      ∃ (store : CacheStore) (now : Instant),
      match store.lookup? now manager.maxDelta function range with
      | some cells => history = manager.looks store now function range ∧ result = .ok cells
      | none => ∃ rest, history = manager.looks store now function range ++ rest ∧
          (manager.engine.submit (function.request start count)).Runs rest result := by
  rw [read, cachedAt_of_ok h]
  constructor
  · intro hruns
    obtain ⟨first, second, served, rfl, hlook, hrest⟩ := Action.runs_bind_iff.mp hruns
    obtain ⟨store, now, rfl, rfl⟩ := cached_runs_iff.mp hlook
    refine ⟨store, now, ?_⟩
    split
    next cells hsome =>
      rw [hsome] at hrest
      obtain ⟨rfl, rfl⟩ := Action.runs_pure_iff.mp hrest
      exact ⟨List.append_nil _, rfl⟩
    next hnone =>
      rw [hnone] at hrest
      exact ⟨second, rfl, hrest⟩
  · intro hruns
    obtain ⟨store, now, hruns⟩ := hruns
    apply Action.runs_bind_iff.mpr
    split at hruns
    next cells hsome =>
      obtain ⟨rfl, rfl⟩ := hruns
      refine ⟨_, [], some cells, (List.append_nil _).symm, ?_, .done _⟩
      exact cached_runs_iff.mpr ⟨store, now, rfl, hsome.symm⟩
    next hnone =>
      obtain ⟨rest, rfl, hrest⟩ := hruns
      refine ⟨_, rest, none, rfl, ?_, hrest⟩
      exact cached_runs_iff.mpr ⟨store, now, rfl, hnone.symm⟩

/-! ### Users of a cache

A read or a command publishes nothing, so it is one of the things that others do in a session
(`PollTask.Session.reaches`). -/

theorem cachedAt_does {cache : Handle} : (manager.cachedAt function start count).Does
    (fun call => ¬ call.Publishes cache) fun _ => True := by
  unfold cachedAt
  split
  next => exact trivial
  next =>
    apply Action.does_perform_bind.mpr
    refine ⟨id, fun store => ?_⟩
    apply Action.does_perform_bind.mpr
    refine ⟨id, fun now => ?_⟩
    split
    next => exact trivial
    next => exact ⟨id, fun _ => trivial⟩

/-! ### Reads in a session -/

variable {task : PollTask} {progress : Progress} {world : CacheWorld} {now : Instant}
  {maxDelta : Duration}

/-- A read that an entry serves names a range. -/
theorem of_eq_ok_of_covers (hsession : task.Session progress world) (hcount : count ≠ 0)
    (h : world.store.Covers now maxDelta function start count) :
    AddressRange.of start count = .ok ⟨start, count⟩ := by
  obtain ⟨entry, hentry, hserves⟩ := h
  obtain ⟨snapshot, hsnapshot, -⟩ := hserves.fresh
  -- a block that has been polled ends at the last address or before
  have hstop := (hsession.sound.kept.entry hentry hsnapshot).fits.stop_le
  have hle : start.toNat + count.toNat ≤ 65536 := Nat.le_trans hserves.le_stop hstop
  exact AddressRange.of_eq_ok_iff.mpr ⟨hcount, hle, rfl⟩

/-- What is found in the entries is a part of the first snapshot that can be served. -/
theorem lookup?_of_covers (hsession : task.Session progress world)
    (h : world.store.Covers now maxDelta function start count) :
    ∃ before entry after snapshot, world.store = before ++ entry :: after ∧
      (∀ earlier ∈ before, ¬ earlier.Serves now maxDelta function start count) ∧
      entry.Serves now maxDelta function start count ∧ entry.snapshot = some snapshot ∧
      snapshot.Holds entry.block world.clock ∧
      start.toNat - entry.block.range.first + count.toNat ≤ snapshot.cells.length ∧
      world.store.lookup? now maxDelta function ⟨start, count⟩ =
        some (snapshot.cells.part (start.toNat - entry.block.range.first) count.toNat) := by
  obtain ⟨before, entry, after, hstore, hbefore, hserves⟩ := h.exists_first
  obtain ⟨snapshot, hsnapshot, -⟩ := hserves.fresh
  have hentry : entry ∈ world.store := by
    rw [hstore]
    exact List.mem_append_right _ List.mem_cons_self
  have hholds := hsession.sound.kept.entry hentry hsnapshot
  refine ⟨before, entry, after, snapshot, hstore, hbefore, hserves, hsnapshot, hholds, ?_, ?_⟩
  · rw [hholds.length]
    exact hserves.offset_le
  · rw [hstore]
    exact CacheStore.lookup?_first hbefore hserves hsnapshot hholds

theorem lookup?_isSome_iff (hsession : task.Session progress world) :
    (world.store.lookup? now maxDelta function ⟨start, count⟩).isSome = true ↔
      world.store.Covers now maxDelta function start count := by
  constructor
  · intro hsome
    apply Classical.byContradiction
    intro hnot
    rw [CacheStore.lookup?_eq_none hnot] at hsome
    cases hsome
  · intro h
    obtain ⟨_, _, _, _, -, -, -, -, -, -, hlookup⟩ := lookup?_of_covers hsession h
    rw [hlookup]
    rfl

theorem isCached_iff {served : Bool} (hsession : task.Session progress world)
    (hruns : (manager.isCached function start count).Runs history served)
    (hseen : Action.SeenAs manager.cache world.store now history) :
    served = true ↔ count ≠ 0 ∧ world.store.Covers now manager.maxDelta function start count := by
  obtain ⟨first, second, found, rfl, hlook, hdone⟩ := Action.runs_bind_iff.mp hruns
  obtain ⟨rfl, rfl⟩ := Action.runs_pure_iff.mp hdone
  cases hrange : AddressRange.of start count with
  | error cause =>
    -- no look is made, and no entry serves a range that does not exist
    rw [cachedAt_of_error hrange] at hlook
    obtain ⟨-, rfl⟩ := Action.runs_pure_iff.mp hlook
    constructor
    · intro hserved
      cases hserved
    · intro h
      rw [of_eq_ok_of_covers hsession h.1 h.2] at hrange
      cases hrange
  | ok range =>
    obtain ⟨hcount, -, rfl⟩ := AddressRange.of_eq_ok_iff.mp hrange
    rw [cachedAt_of_ok hrange] at hlook
    obtain ⟨store, time, rfl, rfl⟩ := cached_runs_iff.mp hlook
    obtain ⟨rfl, rfl⟩ := hseen store time _ (List.append_nil _)
    rw [lookup?_isSome_iff hsession]
    exact ⟨fun h => ⟨hcount, h⟩, fun h => h.2⟩

theorem read_looks_iff {result : Except RequestError Cells}
    (hsession : task.Session progress world)
    (hruns : (manager.read function start count).Runs history result)
    (hseen : Action.SeenAs manager.cache world.store now history) :
    ((∃ cells, result = .ok cells) ∧ ∀ step ∈ history, step.call.Looks manager.cache) ↔
      count ≠ 0 ∧ world.store.Covers now manager.maxDelta function start count := by
  cases hrange : AddressRange.of start count with
  | error cause =>
    rw [read_of_error hrange] at hruns
    obtain ⟨-, rfl⟩ := Action.runs_pure_iff.mp hruns
    constructor
    · intro h
      obtain ⟨⟨cells, hcells⟩, -⟩ := h
      cases hcells
    · intro h
      rw [of_eq_ok_of_covers hsession h.1 h.2] at hrange
      cases hrange
  | ok range =>
    obtain ⟨hcount, -, rfl⟩ := AddressRange.of_eq_ok_iff.mp hrange
    obtain ⟨store, time, hread⟩ := (read_runs_iff hrange).mp hruns
    rw [← lookup?_isSome_iff hsession]
    split at hread
    next cells hsome =>
      obtain ⟨rfl, rfl⟩ := hread
      obtain ⟨rfl, rfl⟩ := hseen store time _ rfl
      rw [hsome]
      exact ⟨fun _ => ⟨hcount, rfl⟩, fun _ => ⟨⟨cells, rfl⟩, looks_look⟩⟩
    next hnone =>
      obtain ⟨rest, rfl, hrest⟩ := hread
      obtain ⟨rfl, rfl⟩ := hseen store time _ rfl
      rw [hnone]
      constructor
      · intro h
        -- a request takes the transport, which is no look at the entries
        obtain ⟨⟨cells, rfl⟩, hlooks⟩ := h
        obtain ⟨transport, rest, rfl⟩ := Engine.submit_ok hrest
        exact (hlooks _ (List.mem_append_right _ List.mem_cons_self)).elim
      · intro h
        cases h.2

/-- However a read goes on, it looks at the entries first. -/
theorem history_of_read {result : Except RequestError Cells} {store : CacheStore}
    (h : match store.lookup? now manager.maxDelta function range with
      | some cells => history = manager.looks store now function range ∧ result = .ok cells
      | none => ∃ rest, history = manager.looks store now function range ++ rest ∧
          (manager.engine.submit (function.request start count)).Runs rest result) :
    ∃ rest, history = ⟨.entries manager.cache, store⟩ :: ⟨.now, now⟩ :: rest := by
  split at h
  next => exact ⟨_, h.1⟩
  next =>
    obtain ⟨rest, rfl, -⟩ := h
    exact ⟨_, rfl⟩

/-- The runs of a read that finds something. -/
theorem read_runs_of_some {result : Except RequestError Cells} {cells : Cells}
    (hrange : AddressRange.of start count = .ok range)
    (hlookup : world.store.lookup? now manager.maxDelta function range = some cells)
    (hseen : Action.SeenAs manager.cache world.store now history) :
    (manager.read function start count).Runs history result ↔
      history = [⟨.entries manager.cache, world.store⟩, ⟨.now, now⟩,
        ⟨.report (.servedFromCache function range), ()⟩] ∧ result = .ok cells := by
  have hlooks : manager.looks world.store now function range =
      [⟨.entries manager.cache, world.store⟩, ⟨.now, now⟩,
        ⟨.report (.servedFromCache function range), ()⟩] := by
    rw [looks, hlookup]
  rw [read_runs_iff hrange]
  constructor
  · intro h
    obtain ⟨store, time, hread⟩ := h
    obtain ⟨rest, hhistory⟩ := history_of_read hread
    obtain ⟨rfl, rfl⟩ := hseen store time rest hhistory
    rw [hlookup] at hread
    rw [← hlooks]
    exact hread
  · intro h
    refine ⟨world.store, now, ?_⟩
    rw [hlookup, hlooks]
    exact h

/-- The runs of a read that finds nothing: those of the request, after the look. -/
theorem read_runs_of_none (hmissed : ¬ (count ≠ 0 ∧
      world.store.Covers now manager.maxDelta function start count)) :
    ∃ looking, (∀ step ∈ looking, step.call.Looks manager.cache) ∧
      (∀ rest result,
        (manager.engine.submit (function.request start count)).Runs rest result →
        (manager.read function start count).Runs (looking ++ rest) result) ∧
      ∀ history result, Action.SeenAs manager.cache world.store now history →
        (manager.read function start count).Runs history result → ∃ rest,
          history = looking ++ rest ∧
            (manager.engine.submit (function.request start count)).Runs rest result := by
  cases hrange : AddressRange.of start count with
  | error cause =>
    -- the range is refused on both ways, so there is nothing to look at
    have hread : manager.read function start count =
        manager.engine.submit (function.request start count) := by
      rw [read_of_error hrange, CacheFunction.request_of_error hrange]
      rfl
    rw [hread]
    exact ⟨[], List.forall_mem_nil _, fun _ _ hrest => hrest,
      fun history _ _ hruns => ⟨history, rfl, hruns⟩⟩
  | ok range =>
    obtain ⟨hcount, -, rfl⟩ := AddressRange.of_eq_ok_iff.mp hrange
    have hlookup : world.store.lookup? now manager.maxDelta function ⟨start, count⟩ = none :=
      CacheStore.lookup?_eq_none fun hcovers => hmissed ⟨hcount, hcovers⟩
    refine ⟨manager.looks world.store now function ⟨start, count⟩, looks_look, ?_, ?_⟩
    · intro rest result hrest
      apply (read_runs_iff hrange).mpr
      refine ⟨world.store, now, ?_⟩
      rw [hlookup]
      exact ⟨rest, rfl, hrest⟩
    · intro history result hseen hruns
      obtain ⟨store, time, hread⟩ := (read_runs_iff hrange).mp hruns
      obtain ⟨rest, hhistory⟩ := history_of_read hread
      obtain ⟨rfl, rfl⟩ := hseen store time rest hhistory
      rw [hlookup] at hread
      exact hread

theorem created_eq {config : CacheConfig} {engine : Engine}
    (h : (config.create engine).Runs history (manager, task)) : ∃ cache,
      manager = ⟨engine, cache, config.blocks, config.maxDelta⟩ ∧
      task = ⟨engine, cache, config.blocks, config.pollInterval⟩ := by
  obtain ⟨cache, rest, rfl, hdone⟩ := Action.runs_perform_bind_iff.mp h
  cases (Action.runs_pure_iff.mp hdone).2
  exact ⟨cache, rfl, rfl⟩

/-- In every state of a session the entries hold what the last successful polls of their blocks
have read, and a poll that fails changes none of them. A read is served from them if and only if
it asks for some cells and an entry has all of them in a snapshot that is young enough; it gets
the part of the first such snapshot that it asks for. -/
theorem reads_latest {config : CacheConfig} {engine : Engine}
    (hcreated : (config.create engine).Runs history (manager, task))
    (hsession : task.Session progress world) :
    world.store = CacheStore.polled config.blocks progress.polls ∧
    (∀ entry ∈ world.store, ∀ snapshot, entry.snapshot = some snapshot →
      snapshot.cells.AreOf entry.block.function ∧
        snapshot.cells.length = entry.block.range.count.toNat) ∧
    (∀ index block error polling after,
      (task.poll index block).Runs polling ⟨index, .error error⟩ →
      (tended task.cache).Allows world polling after → after.store = world.store) ∧
    ∀ function start count now,
      (∀ looking served, (manager.isCached function start count).Runs looking served →
        Action.SeenAs manager.cache world.store now looking →
        (served = true ↔
          count ≠ 0 ∧ world.store.Covers now config.maxDelta function start count)) ∧
      (∀ reading result, (manager.read function start count).Runs reading result →
        Action.SeenAs manager.cache world.store now reading →
        ((∃ cells, result = .ok cells) ∧ (∀ step ∈ reading, step.call.Looks manager.cache) ↔
          count ≠ 0 ∧ world.store.Covers now config.maxDelta function start count)) ∧
      (count ≠ 0 → world.store.Covers now config.maxDelta function start count →
        ∃ before entry after snapshot, world.store = before ++ entry :: after ∧
          (∀ earlier ∈ before, ¬ earlier.Serves now config.maxDelta function start count) ∧
          entry.Serves now config.maxDelta function start count ∧
          entry.snapshot = some snapshot ∧
          start.toNat - entry.block.range.first + count.toNat ≤ snapshot.cells.length ∧
          (snapshot.cells.part (start.toNat - entry.block.range.first) count.toNat).length =
            count.toNat ∧
          ∀ reading result, Action.SeenAs manager.cache world.store now reading →
            ((manager.read function start count).Runs reading result ↔
              reading = [⟨.entries manager.cache, world.store⟩, ⟨.now, now⟩,
                ⟨.report (.servedFromCache function ⟨start, count⟩), ()⟩] ∧
              result = .ok (snapshot.cells.part
                (start.toNat - entry.block.range.first) count.toNat))) := by
  obtain ⟨cache, rfl, rfl⟩ := created_eq hcreated
  have hkept := hsession.sound.kept
  refine ⟨hkept.store, ?_, fun _ _ _ _ _ => PollTask.store_of_failed, ?_⟩
  · intro entry hentry snapshot hsnapshot
    have hholds := hkept.entry hentry hsnapshot
    exact ⟨hholds.areOf, hholds.length⟩
  · intro function start count now
    refine ⟨fun _ _ => isCached_iff hsession, fun _ _ => read_looks_iff hsession, ?_⟩
    intro hcount hcovers
    obtain ⟨before, entry, after, snapshot, hstore, hbefore, hserves, hsnapshot, -, hfits,
      hlookup⟩ := lookup?_of_covers hsession hcovers
    have hrange := of_eq_ok_of_covers hsession hcount hcovers
    exact ⟨before, entry, after, snapshot, hstore, hbefore, hserves, hsnapshot, hfits,
      Cells.length_part hfits, fun _ _ => read_runs_of_some hrange hlookup⟩

/-- A block of two registers is polled over an open connection. -/
theorem session_registers : PollTask.Session
    ⟨⟨⟨1⟩, .tcp, 0⟩, 0, [⟨.readHoldingRegisters, ⟨10, 2⟩⟩], Duration.ofSeconds 1⟩
    ⟨[⟨0, .ok ⟨.registers [7, 8], 0⟩⟩], none⟩
    ⟨0, [⟨⟨.readHoldingRegisters, ⟨10, 2⟩⟩, some ⟨.registers [7, 8], 0⟩⟩]⟩ := by
  let block : CacheBlock := ⟨.readHoldingRegisters, ⟨10, 2⟩⟩
  let snapshot : Snapshot := ⟨.registers [7, 8], 0⟩
  let engine : Engine := ⟨⟨1⟩, .tcp, 0⟩
  let task : PollTask := ⟨engine, 0, [block], Duration.ofSeconds 1⟩
  let net : Tcp.Transport :=
    { settings := { host := "plc", port := 502 }, host := .v4 [10, 0, 0, 7]
      stream := some 0, connection := .connected }
  let request : Bytes := [1, 0, 0, 0, 0, 6, 1, 3, 0, 10, 0, 2]
  let reply : Bytes := [1, 0, 0, 0, 0, 7, 1, 3, 4, 0, 7, 0, 8]
  let exchanging : List Action.Step :=
    [⟨.acquireTransport 0, .tcp net⟩, ⟨.transmit 0 request net.settings.timeout, .ok ()⟩,
      ⟨.receive 0 Frame.maxLength net.settings.timeout, .ok reply⟩,
      ⟨.releaseTransport 0 (.tcp { net with health := ⟨.on, none⟩ }), ()⟩]
  let polling : List Action.Step :=
    exchanging ++ [⟨.now, (0 : Nat)⟩, ⟨.publish 0 0 snapshot, ()⟩]
  have hexchange : (engine.exchange 3 [0, 10, 0, 2] 6).Runs exchanging
      (.ok [3, 4, 0, 7, 0, 8]) := .ask (.ask (.ask (.ask (.done _))))
  have hsubmit : (engine.submit (block.function.request 10 2)).Runs exchanging
      (.ok snapshot.cells) :=
    Action.runs_bind_iff.mpr ⟨exchanging, [], _, rfl, hexchange, .done _⟩
  have hruns : (task.poll 0 block).Runs polling ⟨0, .ok snapshot⟩ :=
    Action.runs_bind_iff.mpr ⟨exchanging, _, _, rfl, hsubmit, .ask (.ask (.done _))⟩
  let start : CacheWorld := ⟨0, .ofBlocks [block]⟩
  let after : CacheWorld := ⟨0, [⟨block, some snapshot⟩]⟩
  have hallows : (tended 0).Allows start polling after := by
    refine .cons ⟨Nat.le_refl 0, rfl⟩ (.cons ⟨Nat.le_refl 0, rfl⟩ ?_)
    refine .cons ⟨Nat.le_refl 0, rfl⟩ (.cons ⟨Nat.le_refl 0, rfl⟩ ?_)
    exact .cons ⟨Nat.le_refl 0, rfl, rfl⟩ (.cons ⟨Nat.le_refl 0, rfl⟩ (.nil after))
  exact PollTask.Session.finish hruns ((PollTask.Session.start 0).turn rfl) hallows

/-- The second of the two registers is served from the cache. -/
theorem reads_latest_register :
    let block : CacheBlock := ⟨.readHoldingRegisters, ⟨10, 2⟩⟩
    let config : CacheConfig := ⟨[block], Duration.ofSeconds 1, none⟩
    let engine : Engine := ⟨⟨1⟩, .tcp, 0⟩
    let manager : CacheManager := ⟨engine, 0, [block], config.maxDelta⟩
    let task : PollTask := ⟨engine, 0, [block], Duration.ofSeconds 1⟩
    let world : CacheWorld := ⟨0, [⟨block, some ⟨.registers [7, 8], 0⟩⟩]⟩
    (config.create engine).Runs [⟨.newCache [block], (0 : Nat)⟩] (manager, task) ∧
    task.Session ⟨[⟨0, .ok ⟨.registers [7, 8], 0⟩⟩], none⟩ world ∧
    ∀ reading result, Action.SeenAs manager.cache world.store 0 reading →
      (manager.read .readHoldingRegisters 11 1).Runs reading result →
      result = .ok (.registers [8]) := by
  intro block config engine manager task world
  have hcreated : (config.create engine).Runs [⟨.newCache [block], (0 : Nat)⟩] (manager, task) :=
    .ask (.done _)
  refine ⟨hcreated, session_registers, ?_⟩
  intro reading result hseen hruns
  have hcovers : world.store.Covers 0 config.maxDelta .readHoldingRegisters 11 1 :=
    ⟨_, List.mem_singleton_self _, rfl, by decide, by decide, _, rfl, Nat.zero_le _⟩
  obtain ⟨-, -, -, hreads⟩ := reads_latest hcreated session_registers
  obtain ⟨before, entry, after, snapshot, hstore, -, -, hsnapshot, -, -, hread⟩ :=
    (hreads .readHoldingRegisters 11 1 0).2.2 (by decide) hcovers
  -- the store has one entry only
  have hentry : entry ∈ world.store := by
    rw [hstore]
    exact List.mem_append_right _ List.mem_cons_self
  cases List.mem_singleton.mp hentry
  cases hsnapshot
  exact ((hread reading result hseen).mp hruns).2

/-- All cells of an empty range are in the block, but no such range is ever cached. -/
theorem isCached_empty :
    let block : CacheBlock := ⟨.readHoldingRegisters, ⟨10, 2⟩⟩
    let config : CacheConfig := ⟨[block], Duration.ofSeconds 1, none⟩
    let engine : Engine := ⟨⟨1⟩, .tcp, 0⟩
    let manager : CacheManager := ⟨engine, 0, [block], config.maxDelta⟩
    let task : PollTask := ⟨engine, 0, [block], Duration.ofSeconds 1⟩
    let world : CacheWorld := ⟨0, [⟨block, some ⟨.registers [7, 8], 0⟩⟩]⟩
    (config.create engine).Runs [⟨.newCache [block], (0 : Nat)⟩] (manager, task) ∧
    task.Session ⟨[⟨0, .ok ⟨.registers [7, 8], 0⟩⟩], none⟩ world ∧
    ∃ looking, (manager.isCached .readHoldingRegisters 10 0).Runs looking false ∧
      Action.SeenAs manager.cache world.store 0 looking ∧
      world.store.Covers 0 config.maxDelta .readHoldingRegisters 10 0 := by
  intro block config engine manager task world
  have hseen : Action.SeenAs manager.cache world.store 0 [] := fun _ _ _ heq => nomatch heq
  refine ⟨.ask (.done _), session_registers, [], .done false, hseen, ?_⟩
  exact ⟨_, List.mem_singleton_self _, rfl, by decide, by decide, _, rfl, Nat.zero_le _⟩

end CacheManager

end ModbusMaster
