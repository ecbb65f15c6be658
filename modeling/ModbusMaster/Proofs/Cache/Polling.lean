import ModbusMaster.Cache.Manager
import ModbusMaster.Cache.Polling
import ModbusMaster.Proofs.Action.Environment
import ModbusMaster.Proofs.Cache.Cells
import ModbusMaster.Proofs.Engine.Exchange

/-!
A cache while its blocks are polled. A session consists of single calls: those of the polls, in
their order, and between any two of them any calls of others, such as reads, commands and waiting.
In every state of a session an entry holds what the last successful poll of its block has read.
-/

namespace ModbusMaster

/-- The call replaces a snapshot of a cache. -/
def Call.Publishes (cache : Handle) : Call → Prop
  | .publish handle _ _ => handle = cache
  | _ => False

theorem Call.OfExchange.not_publishes {call : Call} {cache : Handle} (h : call.OfExchange) :
    ¬ call.Publishes cache := by
  cases call <;> first | exact h.elim | exact id

/-- A poll that has ended: the entry it was for, and its snapshot or the failure. -/
structure Poll where
  index : Nat
  outcome : Except RequestError Snapshot

/-- What an entry is left with by polls, the newest of which is the first. -/
def Poll.latest? (polls : List Poll) (index : Nat) : Option Snapshot :=
  polls.findSome? fun poll => if poll.index = index then poll.outcome.toOption else none

namespace CacheStore

variable {blocks : List CacheBlock} {polls : List Poll} {index : Nat}

/-- The entries of blocks after polls. -/
def polled (blocks : List CacheBlock) (polls : List Poll) : CacheStore :=
  blocks.mapIdx fun index block => ⟨block, Poll.latest? polls index⟩

theorem polled_nil : polled blocks [] = ofBlocks blocks := by
  apply List.ext_getElem
  · simp [polled, ofBlocks]
  · intro i _ _
    simp [polled, ofBlocks, Poll.latest?]

theorem polled_error {error : RequestError} :
    polled blocks (⟨index, .error error⟩ :: polls) = polled blocks polls := by
  have hlatest : Poll.latest? (⟨index, .error error⟩ :: polls) = Poll.latest? polls := by
    funext i
    rw [Poll.latest?, List.findSome?_cons]
    by_cases hi : index = i
    · simp only [hi, if_pos]
      rfl
    · simp only [hi, if_false]
      rfl
  rw [polled, hlatest]
  rfl

theorem polled_ok {snapshot : Snapshot} :
    polled blocks (⟨index, .ok snapshot⟩ :: polls) =
      (polled blocks polls).publish index snapshot := by
  apply List.ext_getElem
  · simp [polled, publish]
  · intro i _ _
    simp only [polled, publish, List.getElem_mapIdx, List.getElem_modify, Poll.latest?,
      List.findSome?_cons]
    by_cases hi : index = i
    · simp only [hi, if_pos]
      rfl
    · simp only [hi, if_false]

theorem mem_polled {entry : CacheEntry} (h : entry ∈ polled blocks polls) :
    ∃ index, blocks[index]? = some entry.block ∧ entry.snapshot = Poll.latest? polls index := by
  obtain ⟨i, hi, heq⟩ := List.getElem_of_mem h
  have hblock : i < blocks.length := by
    rw [polled, List.length_mapIdx] at hi
    exact hi
  simp only [polled, List.getElem_mapIdx] at heq
  subst heq
  exact ⟨i, List.getElem?_eq_getElem hblock, rfl⟩

end CacheStore

/-! ### The polling task, poll by poll -/

namespace PollTask

/-- One poll of a sweep, with its outcome. -/
def poll (task : PollTask) (index : Nat) (block : CacheBlock) : Action Poll := do
  match ← task.engine.submit (block.function.request block.range.start block.range.count) with
  | .ok cells =>
      let now ← Action.now
      Action.publish task.cache index ⟨cells, now⟩
      return ⟨index, .ok ⟨cells, now⟩⟩
  | .error error =>
      Action.report (.pollFailed block error)
      return ⟨index, .error error⟩

/-- A sweep makes one poll after the other. -/
theorem sweepFrom_cons (task : PollTask) (index : Nat) (block : CacheBlock)
    (rest : List CacheBlock) :
    task.sweepFrom index (block :: rest) =
      task.poll index block >>= fun _ => task.sweepFrom (index + 1) rest := by
  rw [sweepFrom, poll, bind_assoc]
  congr 1
  funext result
  cases result <;> rfl

end PollTask

/-! ### Sessions -/

/-- The clock and the entries of a cache. -/
structure CacheWorld where
  clock : Instant
  store : CacheStore

/-- How calls are answered around a cache. Time passes with every call. -/
def tended (cache : Handle) : Environment CacheWorld := fun world step after =>
  world.clock ≤ after.clock ∧
    match step with
    | ⟨.now, instant⟩ => instant = after.clock ∧ after.store = world.store
    | ⟨.entries handle, store⟩ =>
        (handle = cache → store = world.store) ∧ after.store = world.store
    | ⟨.publish handle index snapshot, _⟩ =>
        after.store = if handle = cache then world.store.publish index snapshot else world.store
    | _ => after.store = world.store

theorem tended_inert {cache : Handle} {world after : CacheWorld} {step : Action.Step}
    (h : tended cache world step after) (hcall : ¬ step.call.Publishes cache) :
    after.store = world.store ∧ world.clock ≤ after.clock := by
  rcases step with ⟨call, answer⟩
  obtain ⟨hclock, hstep⟩ := h
  refine ⟨?_, hclock⟩
  cases call
  case now => exact hstep.2
  case entries => exact hstep.2
  case publish handle index snapshot => exact hstep.trans (if_neg hcall)
  all_goals exact hstep

theorem allows_inert {cache : Handle} {world after : CacheWorld} {history : List Action.Step}
    (h : (tended cache).Allows world history after)
    (hcalls : ∀ step ∈ history, ¬ step.call.Publishes cache) : after.store = world.store := by
  induction h with
  | nil => rfl
  | cons hanswer rest ih =>
    obtain ⟨hcall, hrest⟩ := List.forall_mem_cons.mp hcalls
    exact (ih hrest).trans (tended_inert hanswer hcall).1

/-- How far the polling of a cache has come: the polls that have ended, the newest first, and
what is left of the one that is under way. -/
structure Progress where
  polls : List Poll := []
  underWay : Option (Action Poll) := none

/-- A poll of which nothing is left has ended. -/
def Progress.at (polls : List Poll) : Action Poll → Progress
  | .done poll => ⟨poll :: polls, none⟩
  | rest => ⟨polls, some rest⟩

/-- What can come of a new cache. A poll of any block may begin when none is under way, so the
sweeps of the polling task are among the sessions; `PollTask.Works.session` says so. -/
inductive PollTask.Session (task : PollTask) : Progress → CacheWorld → Prop where
  | start (clock : Instant) : Session task {} ⟨clock, .ofBlocks task.blocks⟩
  /-- A poll of any block begins. -/
  | turn {polls : List Poll} {world : CacheWorld} {index : Nat} {block : CacheBlock}
      (h : Session task ⟨polls, none⟩ world) (hblock : task.blocks[index]? = some block) :
      Session task (.at polls (task.poll index block)) world
  /-- The poll goes on by one call. -/
  | own {polls : List Poll} {world after : CacheWorld} {call : Call}
      {next : call.Answer → Action Poll} {answer : call.Answer}
      (h : Session task ⟨polls, some (.ask call next)⟩ world)
      (hanswer : tended task.cache world ⟨call, answer⟩ after) :
      Session task (.at polls (next answer)) after
  /-- Somebody else makes a call, or time passes. -/
  | other {progress : Progress} {world after : CacheWorld} {step : Action.Step}
      (h : Session task progress world) (hcall : ¬ step.call.Publishes task.cache)
      (hanswer : tended task.cache world step after) :
      Session task progress after

/-! ### What a session keeps -/

/-- The snapshot is what the block was read as, not after `clock`. -/
structure Snapshot.Holds (snapshot : Snapshot) (block : CacheBlock) (clock : Instant) : Prop where
  areOf : snapshot.cells.AreOf block.function
  length : snapshot.cells.length = block.range.count.toNat
  fits : block.range.Fits block.function.limit.toNat
  taken_le : snapshot.taken ≤ clock

theorem Snapshot.Holds.later {snapshot : Snapshot} {block : CacheBlock} {clock clock' : Instant}
    (h : snapshot.Holds block clock) (hle : clock ≤ clock') : snapshot.Holds block clock' :=
  ⟨h.areOf, h.length, h.fits, Nat.le_trans h.taken_le hle⟩

/-- Every entry holds what the last successful poll of its block has read. -/
structure CacheWorld.Kept (world : CacheWorld) (blocks : List CacheBlock) (polls : List Poll) :
    Prop where
  store : world.store = CacheStore.polled blocks polls
  holds : ∀ poll ∈ polls, ∀ snapshot, poll.outcome = .ok snapshot →
    ∃ block, blocks[poll.index]? = some block ∧ snapshot.Holds block world.clock

namespace CacheWorld.Kept

variable {world after : CacheWorld} {blocks : List CacheBlock} {polls : List Poll} {index : Nat}

theorem later (h : world.Kept blocks polls) (hstore : after.store = world.store)
    (hclock : world.clock ≤ after.clock) : after.Kept blocks polls := by
  refine ⟨hstore.trans h.store, ?_⟩
  intro poll hpoll snapshot hsnapshot
  obtain ⟨block, hblock, hholds⟩ := h.holds poll hpoll snapshot hsnapshot
  exact ⟨block, hblock, hholds.later hclock⟩

theorem failed (h : world.Kept blocks polls) (error : RequestError) :
    world.Kept blocks (⟨index, .error error⟩ :: polls) := by
  refine ⟨h.store.trans CacheStore.polled_error.symm, ?_⟩
  intro poll hpoll snapshot hsnapshot
  cases hpoll with
  | head => cases hsnapshot
  | tail _ hpoll => exact h.holds poll hpoll snapshot hsnapshot

theorem published {snapshot : Snapshot} {block : CacheBlock} (h : world.Kept blocks polls)
    (hblock : blocks[index]? = some block) (hholds : snapshot.Holds block world.clock) :
    Kept ⟨world.clock, world.store.publish index snapshot⟩ blocks
      (⟨index, .ok snapshot⟩ :: polls) := by
  constructor
  · show world.store.publish index snapshot = _
    rw [h.store, CacheStore.polled_ok]
  · intro poll hpoll snapshot' hsnapshot
    cases hpoll with
    | head =>
      cases hsnapshot
      exact ⟨block, hblock, hholds⟩
    | tail _ hpoll => exact h.holds poll hpoll snapshot' hsnapshot

/-- In whatever order the entries are looked at, a snapshot holds for its entry. -/
theorem entry (h : world.Kept blocks polls) {entry : CacheEntry} {snapshot : Snapshot}
    (hentry : entry ∈ world.store) (hsnapshot : entry.snapshot = some snapshot) :
    snapshot.Holds entry.block world.clock := by
  rw [h.store] at hentry
  obtain ⟨i, hblock, hlatest⟩ := CacheStore.mem_polled hentry
  rw [hsnapshot] at hlatest
  obtain ⟨poll, hpoll, hfound⟩ := List.exists_of_findSome?_eq_some hlatest.symm
  split at hfound
  next hindex =>
    have houtcome : poll.outcome = .ok snapshot := by
      cases hcase : poll.outcome with
      | error error =>
        rw [hcase] at hfound
        cases hfound
      | ok found =>
        rw [hcase] at hfound
        cases hfound
        rfl
    obtain ⟨block, hblock', hholds⟩ := h.holds poll hpoll snapshot houtcome
    rw [hindex, hblock] at hblock'
    cases hblock'
    exact hholds
  next => cases hfound

end CacheWorld.Kept

/-- A poll leaves the entries as they are until its last call, and then they hold what it has
read. -/
def Action.Keeps (cache : Handle) (blocks : List CacheBlock) (polls : List Poll) :
    Action Poll → CacheWorld → Prop
  | .done poll, world => world.Kept blocks (poll :: polls)
  | .ask call next, world => world.Kept blocks polls ∧
      ∀ answer after, tended cache world ⟨call, answer⟩ after →
        (next answer).Keeps cache blocks polls after

namespace Action.Keeps

variable {cache : Handle} {blocks : List CacheBlock} {polls : List Poll} {world after : CacheWorld}

/-- What others do meanwhile makes no difference. -/
theorem later {action : Action Poll} (h : action.Keeps cache blocks polls world)
    (hstore : after.store = world.store) (hclock : world.clock ≤ after.clock) :
    action.Keeps cache blocks polls after := by
  cases action with
  | done poll => exact CacheWorld.Kept.later h hstore hclock
  | ask call next =>
    refine ⟨h.1.later hstore hclock, ?_⟩
    intro answer final hanswer
    -- the call can be answered in the same way before, when only less time has passed
    apply h.2 answer final
    refine ⟨Nat.le_trans hclock hanswer.1, ?_⟩
    have hstep := hanswer.2
    rw [hstore] at hstep
    cases call <;> exact hstep

/-- Calls that do not publish come first. -/
theorem bind {α : Type} {action : Action α} {next : α → Action Poll} {post : α → Prop}
    (hdoes : action.Does (fun call => ¬ call.Publishes cache) post)
    (hkept : world.Kept blocks polls)
    (hnext : ∀ result world, post result → world.Kept blocks polls →
      (next result).Keeps cache blocks polls world) :
    (action >>= next).Keeps cache blocks polls world := by
  induction action generalizing world with
  | done result => exact hnext result world hdoes hkept
  | ask call rest ih =>
    refine ⟨hkept, ?_⟩
    intro answer after hanswer
    obtain ⟨hstore, hclock⟩ := tended_inert hanswer hdoes.1
    exact ih answer (hdoes.2 answer) (hkept.later hstore hclock)

end Action.Keeps

/-- A request for a block that succeeds is one that the block fits in, and all of it is read. -/
theorem Engine.submit_does {engine : Engine} {function : CacheFunction} {start count : UInt16} :
    (engine.submit (function.request start count)).Does Call.OfExchange fun result =>
      ∀ cells, result = .ok cells → AddressRange.Fits ⟨start, count⟩ function.limit.toNat ∧
        cells.AreOf function ∧ cells.length = count.toNat := by
  cases hrequest : function.request start count with
  | error cause => exact fun cells heq => nomatch heq
  | ok request =>
    obtain ⟨rfl, hfits⟩ := CacheFunction.request_eq_ok hrequest
    apply (execute_does (CacheFunction.requestOf_sized hfits)).mono
    intro result hresult cells heq
    obtain ⟨reply, hanswer⟩ := hresult.2 cells heq
    exact ⟨hfits, CacheFunction.answerOf_requestOf hanswer⟩

namespace PollTask

variable {task : PollTask} {progress : Progress} {world after : CacheWorld} {polls : List Poll}
  {index : Nat} {block : CacheBlock} {history : List Action.Step}

theorem poll_keeps (hblock : task.blocks[index]? = some block)
    (hkept : world.Kept task.blocks polls) :
    (task.poll index block).Keeps task.cache task.blocks polls world := by
  apply Action.Keeps.bind (Engine.submit_does.mono_calls fun _ h => h.not_publishes) hkept
  intro result world hresult hkept
  cases result with
  | error error =>
    refine ⟨hkept, ?_⟩
    intro _ after hanswer
    obtain ⟨hstore, hclock⟩ := tended_inert hanswer id
    exact (hkept.later hstore hclock).failed error
  | ok cells =>
    obtain ⟨hfits, hareOf, hlength⟩ := hresult cells rfl
    refine ⟨hkept, ?_⟩
    intro now middle hnow
    -- the instant that is kept with the cells is the one the clock shows after the answer
    have hread : middle.Kept task.blocks polls := hkept.later hnow.2.2 hnow.1
    have hholds : Snapshot.Holds ⟨cells, now⟩ block middle.clock :=
      ⟨hareOf, hlength, hfits, Nat.le_of_eq hnow.2.1⟩
    refine ⟨hread, ?_⟩
    intro _ after hpublish
    have hstore : after.store = middle.store.publish index ⟨cells, now⟩ :=
      hpublish.2.trans (if_pos rfl)
    exact (hread.published hblock hholds).later hstore hpublish.1

/-- What is kept in a session: the entries, and what is left of the poll under way. -/
structure Sound (task : PollTask) (progress : Progress) (world : CacheWorld) : Prop where
  kept : world.Kept task.blocks progress.polls
  underWay : ∀ rest, progress.underWay = some rest →
    rest.Keeps task.cache task.blocks progress.polls world

theorem sound_at {action : Action Poll}
    (h : action.Keeps task.cache task.blocks polls world) :
    task.Sound (.at polls action) world := by
  cases action with
  | done poll => exact ⟨h, fun rest heq => nomatch heq⟩
  | ask call next =>
    refine ⟨h.1, ?_⟩
    intro rest heq
    cases heq
    exact h

theorem Session.sound (h : task.Session progress world) : task.Sound progress world := by
  induction h with
  | start clock =>
    have hkept : CacheWorld.Kept ⟨clock, .ofBlocks task.blocks⟩ task.blocks [] :=
      ⟨CacheStore.polled_nil.symm, List.forall_mem_nil _⟩
    exact ⟨hkept, fun rest heq => nomatch heq⟩
  | turn h hblock ih => exact sound_at (poll_keeps hblock ih.kept)
  | own h hanswer ih => exact sound_at ((ih.underWay _ rfl).2 _ _ hanswer)
  | other h hcall hanswer ih =>
    obtain ⟨hstore, hclock⟩ := tended_inert hanswer hcall
    refine ⟨ih.kept.later hstore hclock, ?_⟩
    intro rest heq
    exact (ih.underWay rest heq).later hstore hclock

/-! ### From calls to whole actions -/

/-- A poll that is under way may come to its end before anybody else makes a call. -/
theorem Session.finish {action : Action Poll} {poll : Poll}
    (hruns : action.Runs history poll) (h : task.Session (.at polls action) world)
    (hallows : (tended task.cache).Allows world history after) :
    task.Session ⟨poll :: polls, none⟩ after := by
  induction hruns generalizing world with
  | done poll =>
    cases hallows
    exact h
  | ask rest ih =>
    cases hallows with
    | cons hanswer hrest => exact ih (.own h hanswer) hrest

/-- Wherever others are in an action that publishes nothing, the session is the same. -/
theorem Session.reaches {α : Type} {action : Action α} (h : task.Session progress world)
    (hdoes : action.Does (fun call => ¬ call.Publishes task.cache) fun _ => True)
    (hreaches : action.Reaches history)
    (hallows : (tended task.cache).Allows world history after) : task.Session progress after := by
  have hcalls := hdoes.of_reaches hreaches
  clear hreaches
  induction hallows with
  | nil => exact h
  | cons hanswer rest ih =>
    obtain ⟨hcall, hrest⟩ := List.forall_mem_cons.mp hcalls
    exact ih (.other h hcall hanswer) hrest

/-- A poll that fails publishes nothing. -/
theorem calls_of_failed {error : RequestError}
    (hruns : (task.poll index block).Runs history ⟨index, .error error⟩) :
    ∀ step ∈ history, ¬ step.call.Publishes task.cache := by
  obtain ⟨first, second, result, rfl, hsubmit, hrest⟩ := Action.runs_bind_iff.mp hruns
  have hexchange := (Engine.submit_does.of_runs hsubmit).1
  intro step hstep
  cases List.mem_append.mp hstep with
  | inl hfirst => exact (hexchange step hfirst).not_publishes
  | inr hsecond =>
    cases result with
    | error cause =>
      obtain ⟨answer, rest, rfl, hdone⟩ := Action.runs_perform_bind_iff.mp hrest
      obtain ⟨rfl, -⟩ := Action.runs_pure_iff.mp hdone
      cases List.mem_singleton.mp hsecond
      exact id
    | ok cells =>
      -- a poll that has read its block does not end in an error
      obtain ⟨now, rest, rfl, hpublish⟩ := Action.runs_perform_bind_iff.mp hrest
      obtain ⟨_, _, rfl, hdone⟩ := Action.runs_perform_bind_iff.mp hpublish
      cases (Action.runs_pure_iff.mp hdone).2

/-- A poll that fails leaves all entries as they are. -/
theorem store_of_failed {error : RequestError}
    (hruns : (task.poll index block).Runs history ⟨index, .error error⟩)
    (hallows : (tended task.cache).Allows world history after) : after.store = world.store :=
  allows_inert hallows (calls_of_failed hruns)

/-! ### The task at work -/

/-- What can come of a new cache and its polling task, call by call: the rest of the task's phase
and the world. -/
inductive Works (task : PollTask) : Action PollPhase → CacheWorld → Prop where
  | start (clock : Instant) : Works task task.start ⟨clock, .ofBlocks task.blocks⟩
  | turn {phase : PollPhase} {world : CacheWorld} (h : Works task (.done phase) world) :
      Works task (task.step phase) world
  | own {world after : CacheWorld} {call : Call} {next : call.Answer → Action PollPhase}
      {answer : call.Answer} (h : Works task (.ask call next) world)
      (hanswer : tended task.cache world ⟨call, answer⟩ after) : Works task (next answer) after
  | other {rest : Action PollPhase} {world after : CacheWorld} {step : Action.Step}
      (h : Works task rest world) (hcall : ¬ step.call.Publishes task.cache)
      (hanswer : tended task.cache world step after) : Works task rest after

/-- The rest of a sweep from an entry on. -/
def sweepRest (task : PollTask) (index : Nat) (blocks : List CacheBlock) : Action PollPhase := do
  task.sweepFrom index blocks
  let now ← Action.now
  return .waiting (now + task.interval)

/-- What is left of a phase goes with what is left of a poll. -/
inductive Follows (task : PollTask) : Action PollPhase → Option (Action Poll) → Prop where
  | idle {rest : Action PollPhase}
      (h : rest.Does (fun call => ¬ call.Publishes task.cache) fun _ => True) :
      Follows task rest none
  | polling {call : Call} {next : call.Answer → Action Poll} {index : Nat}
      {blocks : List CacheBlock} (hblocks : task.blocks.drop index = blocks) :
      Follows task (.ask call next >>= fun _ => task.sweepRest index blocks)
        (some (.ask call next))

/-- A sweep goes on with the next poll, or comes to its end. -/
theorem Session.sweep {blocks : List CacheBlock} (h : task.Session ⟨polls, none⟩ world)
    (hblocks : task.blocks.drop index = blocks) :
    ∃ progress, task.Session progress world ∧
      task.Follows (task.sweepRest index blocks) progress.underWay := by
  induction blocks generalizing index polls with
  | nil =>
    -- all that is left is to look at the clock for the next deadline
    exact ⟨_, h, .idle ⟨id, fun _ => trivial⟩⟩
  | cons block blocks ih =>
    have hblock : task.blocks[index]? = some block := by
      rw [← List.head?_drop, hblocks]
      rfl
    have hrest : task.blocks.drop (index + 1) = blocks := by
      rw [← List.tail_drop, hblocks]
      rfl
    have hpoll := h.turn hblock
    rw [sweepRest, sweepFrom_cons, bind_assoc]
    cases haction : task.poll index block with
    | done poll =>
      -- a poll without any call would be over at once
      rw [haction] at hpoll
      exact ih hpoll hrest
    | ask call next =>
      rw [haction] at hpoll
      exact ⟨_, hpoll, .polling hrest⟩

theorem obey_does {running : Option PollPhase} {signal : Signal} :
    (obey running signal).Does (fun call => ¬ call.Publishes task.cache) fun _ => True := by
  cases signal with
  | due => exact trivial
  | closed => exact ⟨id, fun _ => trivial⟩
  | command command =>
    cases command with
    | pause => exact ⟨id, fun _ => trivial⟩
    | stop => exact ⟨id, fun _ => trivial⟩
    | resume =>
      cases running with
      | some phase => exact trivial
      | none => exact ⟨id, fun _ => trivial⟩

/-- While it does not sweep, the task publishes nothing. -/
theorem step_does {phase : PollPhase} (h : phase ≠ .sweeping) :
    (task.step phase).Does (fun call => ¬ call.Publishes task.cache) fun _ => True := by
  cases phase with
  | sweeping => exact absurd rfl h
  | waiting deadline => exact Action.does_perform_bind.mpr ⟨id, fun _ => obey_does⟩
  | paused => exact Action.does_perform_bind.mpr ⟨id, fun _ => obey_does⟩
  | stopped => exact trivial

/-- A poll goes on, or gives way to the rest of its sweep. -/
theorem Session.proceed {action : Action Poll} {blocks : List CacheBlock}
    (h : task.Session (.at polls action) world) (hblocks : task.blocks.drop index = blocks) :
    ∃ progress, task.Session progress world ∧
      task.Follows (action >>= fun _ => task.sweepRest index blocks) progress.underWay := by
  cases action with
  | done poll => exact h.sweep hblocks
  | ask call next => exact ⟨_, h, .polling hblocks⟩

/-- Every state that the task and others can bring about is a state of a session. -/
theorem Works.session {rest : Action PollPhase} (h : task.Works rest world) :
    ∃ progress, task.Session progress world ∧ task.Follows rest progress.underWay := by
  induction h with
  | start clock => exact ⟨_, .start clock, .idle ⟨id, fun _ => trivial⟩⟩
  | @turn phase world h ih =>
    obtain ⟨⟨polls, underWay⟩, hsession, hfollows⟩ := ih
    -- nothing is left of a phase, so no poll is under way
    cases hfollows with
    | idle =>
      by_cases hphase : phase = .sweeping
      · subst hphase
        exact hsession.sweep rfl
      · exact ⟨_, hsession, .idle (step_does hphase)⟩
  | own h hanswer ih =>
    obtain ⟨⟨polls, underWay⟩, hsession, hfollows⟩ := ih
    generalize hrest : Action.ask _ _ = rest at hfollows
    cases hfollows with
    | idle hdoes =>
      -- the task's own call is then no different from anybody else's
      subst hrest
      exact ⟨_, hsession.other hdoes.1 hanswer, .idle (hdoes.2 _)⟩
    | polling hblocks =>
      cases hrest
      exact (hsession.own hanswer).proceed hblocks
  | other h hcall hanswer ih =>
    obtain ⟨progress, hsession, hfollows⟩ := ih
    exact ⟨progress, hsession.other hcall hanswer, hfollows⟩

end PollTask

end ModbusMaster
