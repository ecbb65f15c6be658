import ModbusMaster.Proofs.Cache.Timeline

/-!
Reads through a cache, one after the other. A read is answered by the first entry that serves it,
and which one that is changes as blocks fail to be polled, grow stale and become fresh again. The
snapshots that answer a read still follow each other in time: an entry that stands ahead and did
not serve before has got a newer snapshot since, and one that does not serve any more was left
behind by the entry that serves now.
-/

namespace ModbusMaster

/-! ### Ages -/

/-- What is too old at an instant was taken before what is not. -/
theorem lt_of_too_old {now older newer limit : Nat} (hold : ¬ now - older ≤ limit)
    (hfresh : now - newer ≤ limit) : older < newer := by
  omega

/-- What is not too old was not too old before. -/
theorem fresh_before {now later taken limit : Nat} (hle : now ≤ later)
    (hfresh : later - taken ≤ limit) : now - taken ≤ limit := by
  omega

/-! ### The entry that answers -/

namespace CacheStore

/-- A read is answered by an entry with a snapshot: the first that serves it. -/
structure AnsweredBy (store : CacheStore) (now : Instant) (maxDelta : Duration)
    (function : CacheFunction) (start count : UInt16) (entry : CacheEntry) (snapshot : Snapshot) :
    Prop where
  first : ∃ before after, store = before ++ entry :: after ∧
    ∀ earlier ∈ before, ¬ earlier.Serves now maxDelta function start count
  serves : entry.Serves now maxDelta function start count
  snapshot_eq : entry.snapshot = some snapshot

variable {store : CacheStore} {now : Instant} {maxDelta : Duration} {function : CacheFunction}
  {start count : UInt16} {entry : CacheEntry} {snapshot : Snapshot}

theorem AnsweredBy.fresh (h : store.AnsweredBy now maxDelta function start count entry snapshot) :
    now - snapshot.taken ≤ maxDelta := by
  obtain ⟨young, hyoung, hfresh⟩ := h.serves.fresh
  rw [h.snapshot_eq] at hyoung
  cases hyoung
  exact hfresh

/-- The place of the entry that answers; no entry ahead of it serves the read. -/
theorem AnsweredBy.exists_index
    (h : store.AnsweredBy now maxDelta function start count entry snapshot) :
    ∃ index : Nat, store[index]? = some entry ∧
      ∀ i, i < index → ∀ earlier, store[i]? = some earlier →
        ¬ earlier.Serves now maxDelta function start count := by
  obtain ⟨before, after, rfl, hbefore⟩ := h.first
  refine ⟨before.length, by simp, ?_⟩
  intro i hi earlier hearlier
  rw [List.getElem?_append_left hi] at hearlier
  exact hbefore earlier (List.mem_of_getElem? hearlier)

end CacheStore

/-- Whether an entry serves a read hangs on its block and on the age of its snapshot. -/
theorem CacheEntry.Serves.of_block {entry entry' : CacheEntry} {now now' : Instant}
    {maxDelta : Duration} {function : CacheFunction} {start count : UInt16} {snapshot : Snapshot}
    (h : entry.Serves now maxDelta function start count) (hblock : entry'.block = entry.block)
    (hsnapshot : entry'.snapshot = some snapshot) (hfresh : now' - snapshot.taken ≤ maxDelta) :
    entry'.Serves now' maxDelta function start count :=
  ⟨hblock ▸ h.function_eq, hblock ▸ h.first_le, hblock ▸ h.le_stop, snapshot, hsnapshot, hfresh⟩

/-- A read that is not answered by the equipment is answered by an entry. -/
theorem CacheManager.answeredBy_of_read {manager : CacheManager} {task : PollTask}
    {progress : Progress} {world : CacheWorld} {now : Instant} {function : CacheFunction}
    {start count : UInt16} {reading : List Action.Step} {cells : Cells}
    (hsession : task.Session progress world)
    (hread : (manager.read function start count).Runs reading (.ok cells))
    (hseen : Action.SeenAs manager.cache world.store now reading)
    (hlooks : ∀ step ∈ reading, step.call.Looks manager.cache) :
    ∃ entry snapshot,
      world.store.AnsweredBy now manager.maxDelta function start count entry snapshot ∧
      cells = snapshot.cells.part (start.toNat - entry.block.range.first) count.toNat := by
  obtain ⟨hcount, hcovers⟩ := (read_looks_iff hsession hread hseen).mp ⟨⟨cells, rfl⟩, hlooks⟩
  obtain ⟨before, entry, after, snapshot, hstore, hbefore, hserves, hsnapshot, -, -, hlookup⟩ :=
    lookup?_of_covers hsession hcovers
  have hrange := of_eq_ok_of_covers hsession hcount hcovers
  have hcells := ((read_runs_of_some hrange hlookup hseen).mp hread).2
  exact ⟨entry, snapshot, ⟨⟨before, after, hstore, hbefore⟩, hserves, hsnapshot⟩,
    Except.ok.inj hcells⟩

/-- A read of a cache that is served from the entries as they are at an instant. -/
structure CacheManager.Serves (manager : CacheManager) (store : CacheStore) (now : Instant)
    (function : CacheFunction) (start count : UInt16) (reading : List Action.Step)
    (cells : Cells) : Prop where
  runs : (manager.read function start count).Runs reading (.ok cells)
  seen : Action.SeenAs manager.cache store now reading
  looks : ∀ step ∈ reading, step.call.Looks manager.cache

/-- What is found in the entries is served. -/
theorem CacheManager.serves_of_lookup {manager : CacheManager} {store : CacheStore} {now : Instant}
    {function : CacheFunction} {start count : UInt16} {range : AddressRange} {cells : Cells}
    (hrange : AddressRange.of start count = .ok range)
    (hlookup : store.lookup? now manager.maxDelta function range = some cells) :
    manager.Serves store now function start count (manager.looks store now function range)
      cells where
  runs := by
    apply (read_runs_iff hrange).mpr
    refine ⟨store, now, ?_⟩
    rw [hlookup]
    exact ⟨rfl, rfl⟩
  seen := by
    intro seen time rest hlooks
    cases hlooks
    exact ⟨rfl, rfl⟩
  looks := looks_look

namespace PollTask

variable {task : PollTask} {manager : CacheManager} {chronicle chronicle' : Chronicle}
  {life life' : Life} {maxDelta : Duration} {function : CacheFunction} {start count : UInt16}
  {entry entry' : CacheEntry} {snapshot snapshot' : Snapshot}

/-- Whichever entries answer two reads of the same cells, the later read gets no older snapshot. -/
theorem Leads.taken_le (h : task.Lives manager chronicle life)
    (hleads : task.Leads manager chronicle life chronicle' life')
    (hfirst : (chronicle.store task.cache task.blocks).AnsweredBy life.clock maxDelta function
      start count entry snapshot)
    (hsecond : (chronicle'.store task.cache task.blocks).AnsweredBy life'.clock maxDelta function
      start count entry' snapshot') :
    snapshot.taken ≤ snapshot'.taken := by
  obtain ⟨later, rfl, hclock, hordered⟩ := hleads.published_le h
  obtain ⟨i, hentry, hahead⟩ := hfirst.exists_index
  obtain ⟨j, hentry', hahead'⟩ := hsecond.exists_index
  have hpublished := Chronicle.mem_published hentry hfirst.snapshot_eq
  have hfresh' := hsecond.fresh
  rw [Chronicle.store_append] at hentry' hahead'
  -- an entry that has got a snapshot since the first read has got one that was taken later
  have hsince : ∀ {index newer}, (index, newer) ∈ later.published task.cache →
      snapshot.taken ≤ newer.taken := fun hnewer => hordered _ hpublished _ hnewer
  obtain ⟨before, hbefore, hblock', hsnapshot'⟩ := CacheStore.exists_of_publishAll hentry'
  rw [hsecond.snapshot_eq] at hsnapshot'
  rcases hsnapshot' with hkept | ⟨newer, hnewer, heq⟩
  · rcases Nat.lt_trichotomy i j with hlt | rfl | hgt
    · -- the entry that answered first is still ahead, so its snapshot has become too old
      have hi : i < ((chronicle.store task.cache task.blocks).publishAll
          (later.published task.cache)).length := by
        rw [CacheStore.length_publishAll]
        exact (List.getElem?_eq_some_iff.mp hentry).1
      obtain ⟨stale, hstale⟩ : ∃ stale, ((chronicle.store task.cache task.blocks).publishAll
          (later.published task.cache))[i]? = some stale := ⟨_, List.getElem?_eq_getElem hi⟩
      have hnot := hahead' i hlt stale hstale
      obtain ⟨_, hsame, hblock, hsnapshot⟩ := CacheStore.exists_of_publishAll hstale
      cases hentry.symm.trans hsame
      rcases hsnapshot with hold | ⟨newer, hnewer, hnew⟩
      · rw [hfirst.snapshot_eq] at hold
        have hstale : ¬ life'.clock - snapshot.taken ≤ maxDelta := fun hfresh =>
          hnot (hfirst.serves.of_block hblock hold hfresh)
        exact Nat.le_of_lt (lt_of_too_old hstale hfresh')
      · have hstale : ¬ life'.clock - newer.taken ≤ maxDelta := fun hfresh =>
          hnot (hfirst.serves.of_block hblock hnew hfresh)
        exact Nat.le_trans (hsince hnewer) (Nat.le_of_lt (lt_of_too_old hstale hfresh'))
    · -- the same snapshot answers both
      cases hentry.symm.trans hbefore
      rw [hfirst.snapshot_eq] at hkept
      cases hkept
      exact Nat.le_refl _
    · -- with the snapshot that it has kept the entry would have answered the first read
      refine absurd ?_ (hahead j hgt before hbefore)
      exact hsecond.serves.of_block hblock'.symm hkept.symm (fresh_before hclock hfresh')
  · cases heq
    exact hsince hnewer

/-- Two reads of the same cells, one after the other, that are both served from the cache: each
gets its cells from the first entry that serves it then, and the snapshot that the later read gets
was not taken before the one that the earlier read has got. -/
theorem served_in_order {config : CacheConfig} {engine : Engine}
    {created reading reading' : List Action.Step} {cells cells' : Cells}
    (hcreated : (config.create engine).Runs created (manager, task))
    (h : task.Lives manager chronicle life)
    (hleads : task.Leads manager chronicle life chronicle' life')
    (hread : manager.Serves (chronicle.store manager.cache config.blocks) life.clock function
      start count reading cells)
    (hread' : manager.Serves (chronicle'.store manager.cache config.blocks) life'.clock function
      start count reading' cells') :
    ∃ entry snapshot entry' snapshot',
      (chronicle.store manager.cache config.blocks).AnsweredBy life.clock config.maxDelta
        function start count entry snapshot ∧
      cells = snapshot.cells.part (start.toNat - entry.block.range.first) count.toNat ∧
      (chronicle'.store manager.cache config.blocks).AnsweredBy life'.clock config.maxDelta
        function start count entry' snapshot' ∧
      cells' = snapshot'.cells.part (start.toNat - entry'.block.range.first) count.toNat ∧
      snapshot.taken ≤ snapshot'.taken := by
  obtain ⟨cache, rfl, rfl⟩ := CacheManager.created_eq hcreated
  obtain ⟨-, progress, hsession⟩ := h.works
  obtain ⟨-, progress', hsession'⟩ := (hleads.lives h).works
  obtain ⟨entry, snapshot, hanswered, hcells⟩ :=
    CacheManager.answeredBy_of_read hsession hread.runs hread.seen hread.looks
  obtain ⟨entry', snapshot', hanswered', hcells'⟩ :=
    CacheManager.answeredBy_of_read hsession' hread'.runs hread'.seen hread'.looks
  exact ⟨entry, snapshot, entry', snapshot', hanswered, hcells, hanswered', hcells',
    hleads.taken_le h hanswered hanswered'⟩

/-- The calls of a poll of the second one of them. -/
def secondCalls (index : Nat) (taken : Instant) : List Action.Step :=
  exchangeCalls [1, 0, 0, 0, 0, 6, 1, 3, 0, 11, 0, 1] [1, 0, 0, 0, 0, 5, 1, 3, 2, 0, 9] ++
    [⟨.now, taken⟩, ⟨.publish 0 index ⟨.registers [9], taken⟩, ()⟩]

theorem secondCalls_run (index : Nat) (taken : Instant) {blocks : List CacheBlock}
    {interval : Duration} :
    (poll ⟨⟨⟨1⟩, .tcp, 0⟩, 0, blocks, interval⟩ index ⟨.readHoldingRegisters, ⟨11, 1⟩⟩).Runs
      (secondCalls index taken) ⟨index, .ok ⟨.registers [9], taken⟩⟩ := by
  have hexchange : (Engine.exchange ⟨⟨1⟩, .tcp, 0⟩ 3 [0, 11, 0, 1] 4).Runs
      ((secondCalls index taken).take 4) (.ok [3, 2, 0, 9]) :=
    .ask (.ask (.ask (.ask (.done _))))
  exact poll_runs (Action.runs_bind_iff.mpr ⟨_, [], _, rfl, hexchange, .done _⟩)

theorem shown_pairCalls {index : Nat} {taken : Instant} :
    ∀ step ∈ pairCalls index taken, ∀ instant ∈ step.shown?, instant = taken := by
  simp [pairCalls, exchangeCalls, Action.Step.shown?]

theorem shown_secondCalls {index : Nat} {taken : Instant} :
    ∀ step ∈ secondCalls index taken, ∀ instant ∈ step.shown?, instant = taken := by
  simp [secondCalls, exchangeCalls, Action.Step.shown?]

/-- A register is read from the first of two blocks, and when that has become too old from the
second one, which has been polled meanwhile. -/
theorem served_in_order_overlap :
    let first : CacheBlock := ⟨.readHoldingRegisters, ⟨10, 2⟩⟩
    let second : CacheBlock := ⟨.readHoldingRegisters, ⟨11, 1⟩⟩
    let config : CacheConfig := ⟨[first, second], 3, some 1⟩
    let engine : Engine := ⟨⟨1⟩, .tcp, 0⟩
    let manager : CacheManager := ⟨engine, 0, [first, second], 1⟩
    let task : PollTask := ⟨engine, 0, [first, second], 3⟩
    ∃ chronicle life chronicle' life' reading reading',
      task.Lives manager chronicle life ∧ task.Leads manager chronicle life chronicle' life' ∧
      manager.Serves (chronicle.store 0 config.blocks) life.clock .readHoldingRegisters 11 1
        reading (.registers [8]) ∧
      manager.Serves (chronicle'.store 0 config.blocks) life'.clock .readHoldingRegisters 11 1
        reading' (.registers [9]) ∧
      ∃ entry snapshot entry' snapshot',
        (chronicle.store 0 config.blocks).AnsweredBy life.clock 1 .readHoldingRegisters 11 1
          entry snapshot ∧
        (chronicle'.store 0 config.blocks).AnsweredBy life'.clock 1 .readHoldingRegisters 11 1
          entry' snapshot' ∧
        snapshot.taken ≤ snapshot'.taken := by
  intro first second config engine manager task
  let chronicle : Chronicle :=
    [(0, .own ⟨.report (.pollingStarted 2), ()⟩), (0, .entered .sweeping)] ++
      (pairCalls 0 0).map fun step => (0, .own step)
  let chronicle' : Chronicle := chronicle ++ (secondCalls 1 2).map fun step => (2, .own step)
  let life : Life := ⟨0, [], true, some (task.sweepRest 1 [second])⟩
  let life' : Life := ⟨2, [], true, some (task.sweepRest 2 [])⟩
  have hcreated : (config.create engine).Runs [⟨.newCache [first, second], (0 : Nat)⟩]
      (manager, task) := .ask (.done _)
  have h : task.Lives manager chronicle life :=
    Lives.begun.polls (pairCalls_run 0 0) shown_pairCalls
  have hleads : task.Leads manager chronicle life chronicle' life' :=
    Leads.polls (.wait .refl (Nat.zero_le 2)) (secondCalls_run 1 2) shown_secondCalls
  have hstore : chronicle.store 0 config.blocks =
      [⟨first, some ⟨.registers [7, 8], 0⟩⟩, ⟨second, none⟩] := rfl
  have hstore' : chronicle'.store 0 config.blocks =
      [⟨first, some ⟨.registers [7, 8], 0⟩⟩, ⟨second, some ⟨.registers [9], 2⟩⟩] := rfl
  have hread : manager.Serves (chronicle.store 0 config.blocks) 0 .readHoldingRegisters 11 1
      (manager.looks _ 0 .readHoldingRegisters ⟨11, 1⟩) (.registers [8]) :=
    CacheManager.serves_of_lookup rfl (hstore ▸ rfl)
  have hread' : manager.Serves (chronicle'.store 0 config.blocks) 2 .readHoldingRegisters 11 1
      (manager.looks _ 2 .readHoldingRegisters ⟨11, 1⟩) (.registers [9]) :=
    CacheManager.serves_of_lookup rfl (hstore' ▸ rfl)
  refine ⟨chronicle, life, chronicle', life', _, _, h, hleads, hread, hread', ?_⟩
  obtain ⟨entry, snapshot, entry', snapshot', hanswered, -, hanswered', -, hle⟩ :=
    served_in_order hcreated h hleads hread hread'
  exact ⟨entry, snapshot, entry', snapshot', hanswered, hanswered', hle⟩

end PollTask

end ModbusMaster
