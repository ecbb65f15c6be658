import ModbusMaster.Proofs.Cache.Chronicle
import ModbusMaster.Proofs.Cache.Reading

/-!
The commands of a polling task. The task and those who command it act one at a time and in any
order, while time passes; what has happened so far is kept in a chronicle, and `PollTask.Leads` is
what can come of a task from some happening on. `PollTask.Stands` says what the chronicle is like
at every place where the task can be, and every property of the commands is read off from there.
-/

namespace ModbusMaster

/-- A polling task with the commands for it. -/
structure Life where
  clock : Instant
  /-- The commands that were sent and not received yet. -/
  queue : List Command
  /-- Whether there is somebody who can send commands. -/
  isOpen : Bool
  /-- What is left of the phase that the task is in; nothing once the task has ended. -/
  rest : Option (Action PollPhase)

/-- How many commands can wait to be received. -/
def commandLimit : Nat := 8

namespace Life

/-- How a call of the task may be answered, and the commands that still wait then. A deadline that
has come does not go before a command, nor the other way round. A panic is passed over: what the
task waits for is taken to come before `Instant.limit`. -/
def Answers (life : Life) (queue : List Command) : Action.Step → Prop
  | ⟨.await _ _, .command command⟩ => life.queue = command :: queue
  | ⟨.await _ _, .closed⟩ => life.queue = [] ∧ life.isOpen = false ∧ queue = []
  | ⟨.await _ deadline, .due⟩ =>
      (∃ instant, deadline = some instant ∧ instant ≤ life.clock) ∧ queue = life.queue
  | ⟨.now, instant⟩ => instant = life.clock ∧ queue = life.queue
  | _ => queue = life.queue

end Life

namespace PollTask

variable {task : PollTask} {manager : CacheManager} {chronicle chronicle' : Chronicle}
  {life life' after : Life}

/-- One thing that happens to the task and its commands. -/
inductive Moves (task : PollTask) (manager : CacheManager) (life : Life) :
    Happening → Life → Prop where
  | own {call : Call} {next : call.Answer → Action PollPhase} {answer : call.Answer}
      {queue : List Command} (hrest : life.rest = some (.ask call next))
      (hanswer : life.Answers queue ⟨call, answer⟩) :
      Moves task manager life (.own ⟨call, answer⟩)
        { life with queue, rest := some (next answer) }
  | enter {phase : PollPhase} (hrest : life.rest = some (.done phase))
      (hphase : phase ≠ .stopped) :
      Moves task manager life (.entered phase) { life with rest := some (task.step phase) }
  | finish (hrest : life.rest = some (.done .stopped)) :
      Moves task manager life .ended { life with rest := none }
  | accept {command : Command} {result : Except RequestError Unit} (hopen : life.isOpen)
      (halive : life.rest.isSome) (hroom : life.queue.length < commandLimit)
      (hruns : (manager.send command).Runs [⟨.command manager.cache command, true⟩] result) :
      Moves task manager life (.sent command result)
        { life with queue := life.queue ++ [command] }
  | refuse {command : Command} {result : Except RequestError Unit} (hopen : life.isOpen)
      (hended : life.rest = none)
      (hruns : (manager.send command).Runs [⟨.command manager.cache command, false⟩] result) :
      Moves task manager life (.sent command result) life
  | drop (hopen : life.isOpen) : Moves task manager life .dropped { life with isOpen := false }

/-- What can come of a new polling task. -/
inductive Lives (task : PollTask) (manager : CacheManager) : Chronicle → Life → Prop where
  | start (clock : Instant) : Lives task manager [] ⟨clock, [], true, some task.start⟩
  | wait {chronicle : Chronicle} {life : Life} {clock : Instant}
      (h : Lives task manager chronicle life) (hclock : life.clock ≤ clock) :
      Lives task manager chronicle { life with clock }
  | move {chronicle : Chronicle} {life after : Life} {happening : Happening}
      (h : Lives task manager chronicle life) (hmove : Moves task manager life happening after) :
      Lives task manager (chronicle ++ [(life.clock, happening)]) after

/-- What can come of a polling task from some happening on. -/
inductive Leads (task : PollTask) (manager : CacheManager) (chronicle : Chronicle) (life : Life) :
    Chronicle → Life → Prop where
  | refl : Leads task manager chronicle life chronicle life
  | wait {chronicle' : Chronicle} {life' : Life} {clock : Instant}
      (h : Leads task manager chronicle life chronicle' life') (hclock : life'.clock ≤ clock) :
      Leads task manager chronicle life chronicle' { life' with clock }
  | move {chronicle' : Chronicle} {life' after : Life} {happening : Happening}
      (h : Leads task manager chronicle life chronicle' life')
      (hmove : Moves task manager life' happening after) :
      Leads task manager chronicle life (chronicle' ++ [(life'.clock, happening)]) after

theorem Leads.lives (hleads : task.Leads manager chronicle life chronicle' life')
    (h : task.Lives manager chronicle life) : task.Lives manager chronicle' life' := by
  induction hleads with
  | refl => exact h
  | wait _ hclock ih => exact ih.wait hclock
  | move _ hmove ih => exact ih.move hmove

/-- The task goes through an action at one instant, if the calls can be answered so. -/
theorem Leads.calls {α : Type} {action : Action α} {next : α → Action PollPhase}
    {history : List Action.Step} {result : α} {clock : Instant} {queue : List Command}
    {isOpen : Bool} (h : task.Leads manager chronicle life chronicle'
      ⟨clock, queue, isOpen, some (action >>= next)⟩)
    (hruns : action.Runs history result)
    (hanswers : ∀ step ∈ history, ∀ rest, Life.Answers ⟨clock, queue, isOpen, rest⟩ queue step) :
    task.Leads manager chronicle life (chronicle' ++ history.map fun step => (clock, .own step))
      ⟨clock, queue, isOpen, some (next result)⟩ := by
  induction hruns generalizing chronicle' with
  | done result =>
    rw [List.map_nil, List.append_nil]
    exact h
  | @ask call rest answer history result hrest ih =>
    obtain ⟨hanswer, hanswers⟩ := List.forall_mem_cons.mp hanswers
    have hmove := h.move (.own rfl (hanswer _))
    rw [List.map_cons, List.append_cons]
    exact ih hmove hanswers

namespace Lives

variable {clock : Instant} {queue queue' : List Command} {isOpen : Bool}

theorem own {call : Call} {next : call.Answer → Action PollPhase}
    (h : task.Lives manager chronicle ⟨clock, queue, isOpen, some (.ask call next)⟩)
    (answer : call.Answer)
    (hanswer : Life.Answers ⟨clock, queue, isOpen, some (.ask call next)⟩ queue' ⟨call, answer⟩) :
    task.Lives manager (chronicle ++ [(clock, .own ⟨call, answer⟩)])
      ⟨clock, queue', isOpen, some (next answer)⟩ :=
  h.move (.own rfl hanswer)

theorem enter {phase : PollPhase}
    (h : task.Lives manager chronicle ⟨clock, queue, isOpen, some (.done phase)⟩)
    (hphase : phase ≠ .stopped) :
    task.Lives manager (chronicle ++ [(clock, .entered phase)])
      ⟨clock, queue, isOpen, some (task.step phase)⟩ :=
  h.move (.enter rfl hphase)

/-- A task begins its first sweep. -/
theorem begun : task.Lives manager
    [(0, .own ⟨.report (.pollingStarted task.blocks.length), ()⟩), (0, .entered .sweeping)]
    ⟨0, [], true, some (task.step .sweeping)⟩ := by
  have hstart : task.Lives manager [] ⟨0, [], true, some task.start⟩ := .start 0
  exact (hstart.own () rfl).enter nofun

theorem accept {rest : Action PollPhase}
    (h : task.Lives manager chronicle ⟨clock, queue, true, some rest⟩) (command : Command)
    (hroom : queue.length < commandLimit) :
    task.Lives manager (chronicle ++ [(clock, .sent command (.ok ()))])
      ⟨clock, queue ++ [command], true, some rest⟩ :=
  h.move (.accept rfl rfl hroom (.ask (.done _)))

theorem finish (h : task.Lives manager chronicle ⟨clock, queue, isOpen, some (.done .stopped)⟩) :
    task.Lives manager (chronicle ++ [(clock, .ended)]) ⟨clock, queue, isOpen, none⟩ :=
  h.move (.finish rfl)

theorem refuse (h : task.Lives manager chronicle ⟨clock, queue, true, none⟩) (command : Command) :
    task.Lives manager (chronicle ++ [(clock, .sent command (.error .shutdown))])
      ⟨clock, queue, true, none⟩ :=
  h.move (.refuse rfl rfl (.ask (.done _)))

/-- The task goes through an action at one instant, if the calls can be answered so. -/
theorem calls {α : Type} {action : Action α} {next : α → Action PollPhase}
    {history : List Action.Step} {result : α}
    (h : task.Lives manager chronicle ⟨clock, queue, isOpen, some (action >>= next)⟩)
    (hruns : action.Runs history result)
    (hanswers : ∀ step ∈ history, ∀ rest, Life.Answers ⟨clock, queue, isOpen, rest⟩ queue step) :
    task.Lives manager (chronicle ++ history.map fun step => (clock, .own step))
      ⟨clock, queue, isOpen, some (next result)⟩ :=
  (Leads.calls .refl hruns hanswers).lives h

end Lives

theorem send_result {command : Command} {taken : Bool} {result : Except RequestError Unit}
    (hruns : (manager.send command).Runs [⟨.command manager.cache command, taken⟩] result) :
    result = if taken then .ok () else .error .shutdown := by
  obtain ⟨answer, rest, hhistory, hdone⟩ := Action.runs_perform_bind_iff.mp hruns
  cases hhistory
  cases taken with
  | true => exact (Action.runs_pure_iff.mp hdone).2
  | false => exact (Action.runs_pure_iff.mp hdone).2

/-- What is received comes from the front of the queue, and what is sent goes to its end. -/
theorem Moves.queue {happening : Happening} (h : task.Moves manager life happening after) :
    life.queue ++ happening.accepted?.toList = happening.received?.toList ++ after.queue := by
  cases h with
  | @own call next answer queue hrest hanswer =>
    show life.queue ++ [] = (Happening.own ⟨call, answer⟩).received?.toList ++ queue
    rw [List.append_nil]
    cases call with
    | await cache deadline =>
      cases answer with
      | command command => exact hanswer
      | closed => exact hanswer.1.trans hanswer.2.2.symm
      | due => exact hanswer.2.symm
    | now => exact hanswer.2.symm
    | _ => exact Eq.symm hanswer
  | enter | finish | drop => exact List.append_nil _
  | accept hopen halive hroom hruns =>
    rw [send_result hruns]
    rfl
  | refuse hopen hended hruns =>
    rw [send_result hruns]
    exact List.append_nil _

/-! ### Where the task is -/

/-- What follows the last poll of a sweep. -/
def plan (task : PollTask) : Action PollPhase := do
  let now ← Action.now
  return .waiting (now + task.interval)

theorem sweepFrom_does (task : PollTask) (index : Nat) (blocks : List CacheBlock) :
    (task.sweepFrom index blocks).Does (fun call => ¬ call.Awaits) fun _ => True := by
  induction blocks generalizing index with
  | nil => exact trivial
  | cons block blocks ih =>
    apply (Engine.submit_does.mono_calls fun _ => Call.OfExchange.not_awaits).bind
    intro result _
    cases result with
    | ok cells => exact ⟨id, fun _ => ⟨id, fun _ => ih (index + 1)⟩⟩
    | error error => exact ⟨id, fun _ => ih (index + 1)⟩

/-- A poll that has read its block looks at the clock and publishes. -/
theorem poll_runs {index : Nat} {block : CacheBlock} {calls : List Action.Step} {cells : Cells}
    {taken : Instant}
    (hsubmit : (task.engine.submit (block.function.request block.range.start
      block.range.count)).Runs calls (.ok cells)) :
    (task.poll index block).Runs
      (calls ++ [⟨.now, taken⟩, ⟨.publish task.cache index ⟨cells, taken⟩, ()⟩])
      ⟨index, .ok ⟨cells, taken⟩⟩ :=
  Action.runs_bind_iff.mpr ⟨calls, _, .ok cells, rfl, hsubmit, .ask (.ask (.done _))⟩

/-- A poll that has not read its block says so. -/
theorem poll_fails {index : Nat} {block : CacheBlock} {calls : List Action.Step}
    {error : RequestError}
    (hsubmit : (task.engine.submit (block.function.request block.range.start
      block.range.count)).Runs calls (.error error)) :
    (task.poll index block).Runs (calls ++ [⟨.report (.pollFailed block error), ()⟩])
      ⟨index, .error error⟩ :=
  Action.runs_bind_iff.mpr ⟨calls, _, .error error, rfl, hsubmit, .ask (.done _)⟩

/-- The calls of a whole poll of a block, given with its place. -/
def Polled (task : PollTask) (block : CacheBlock × Nat) (history : List Action.Step) : Prop :=
  ∃ poll, (task.poll block.2 block.1).Runs history poll

/-- The calls of a sweep after the polls of the blocks before `index`. -/
def UnderWay (task : PollTask) (index : Nat) (blocks : List CacheBlock)
    (history : List Action.Step) : Prop :=
  match blocks with
  | [] => history = [] ∨ ∃ instant : Instant, history = [⟨.now, instant⟩]
  | block :: _ => (task.poll index block).Reaches history

theorem sweepFrom_polls {index : Nat} {blocks : List CacheBlock} {history : List Action.Step}
    (h : (task.sweepFrom index blocks).Runs history ()) :
    ∃ histories, history = histories.flatten ∧
      List.Forall₂ task.Polled (blocks.zipIdx index) histories := by
  induction blocks generalizing index history with
  | nil =>
    obtain ⟨rfl, -⟩ := Action.runs_pure_iff.mp h
    exact ⟨[], rfl, .nil⟩
  | cons block blocks ih =>
    rw [sweepFrom_cons] at h
    obtain ⟨first, second, poll, rfl, hpoll, hrest⟩ := Action.runs_bind_iff.mp h
    obtain ⟨histories, rfl, hpolled⟩ := ih hrest
    exact ⟨first :: histories, rfl, .cons ⟨poll, hpoll⟩ hpolled⟩

theorem sweepFrom_underWay {index : Nat} {blocks : List CacheBlock} {history : List Action.Step}
    {left : Action Unit} (h : (task.sweepFrom index blocks).Leaves history left) :
    ∃ polled rest histories under, blocks = polled ++ rest ∧
      history = histories.flatten ++ under ∧
      List.Forall₂ task.Polled (polled.zipIdx index) histories ∧
      task.UnderWay (index + polled.length) rest under := by
  induction blocks generalizing index history with
  | nil =>
    cases h with
    | start => exact ⟨[], [], [], [], rfl, rfl, .nil, .inl rfl⟩
  | cons block blocks ih =>
    rw [sweepFrom_cons] at h
    cases Action.leaves_bind h with
    | inl hpolling =>
      obtain ⟨_, hpoll, -⟩ := hpolling
      exact ⟨[], block :: blocks, [], history, rfl, rfl, .nil, hpoll.reaches⟩
    | inr hrest =>
      obtain ⟨first, second, poll, rfl, hpoll, hleaves⟩ := hrest
      obtain ⟨polled, rest, histories, under, rfl, rfl, hpolled, hunder⟩ := ih hleaves
      refine ⟨block :: polled, rest, first :: histories, under, rfl, ?_, ?_, ?_⟩
      · rw [List.flatten_cons, List.append_assoc]
      · exact .cons ⟨poll, hpoll⟩ hpolled
      · rw [List.length_cons, Nat.add_comm polled.length, ← Nat.add_assoc]
        exact hunder

/-- A sweep is over when every block has been polled. -/
theorem sweep_runs {history : List Action.Step} {phase : PollPhase}
    (h : (task.step .sweeping).Runs history phase) :
    ∃ (histories : List (List Action.Step)) (instant : Instant),
      history = histories.flatten ++ [⟨.now, instant⟩] ∧
      List.Forall₂ task.Polled task.blocks.zipIdx histories ∧
      phase = .waiting (instant + task.interval) := by
  obtain ⟨first, second, _, rfl, hsweep, hplan⟩ := Action.runs_bind_iff.mp h
  obtain ⟨histories, rfl, hpolled⟩ := sweepFrom_polls hsweep
  obtain ⟨instant, rest, rfl, hdone⟩ := Action.runs_perform_bind_iff.mp hplan
  obtain ⟨rfl, rfl⟩ := Action.runs_pure_iff.mp hdone
  exact ⟨histories, instant, rfl, hpolled, rfl⟩

theorem sweep_underWay {history : List Action.Step} {left : Action PollPhase}
    (h : (task.step .sweeping).Leaves history left) :
    ∃ polled rest histories under, task.blocks = polled ++ rest ∧
      history = histories.flatten ++ under ∧
      List.Forall₂ task.Polled polled.zipIdx histories ∧
      task.UnderWay polled.length rest under := by
  cases Action.leaves_bind h with
  | inl hsweeping =>
    obtain ⟨_, hsweep, -⟩ := hsweeping
    obtain ⟨polled, rest, histories, under, hblocks, rfl, hpolled, hunder⟩ :=
      sweepFrom_underWay hsweep
    rw [Nat.zero_add] at hunder
    exact ⟨polled, rest, histories, under, hblocks, rfl, hpolled, hunder⟩
  | inr hplanning =>
    obtain ⟨first, second, _, rfl, hsweep, hplan⟩ := hplanning
    obtain ⟨histories, rfl, hpolled⟩ := sweepFrom_polls hsweep
    refine ⟨task.blocks, [], histories, second, (List.append_nil _).symm, rfl, hpolled, ?_⟩
    cases hplan with
    | start => exact .inl rfl
    | ask rest =>
      cases rest with
      | start => exact .inr ⟨_, rfl⟩

/-- No call of a sweep waits for commands. -/
theorem sweep_does : (task.step .sweeping).Does (fun call => ¬ call.Awaits) fun phase =>
    ∃ deadline, phase = .waiting deadline :=
  (task.sweepFrom_does 0 task.blocks).bind fun _ _ => ⟨id, fun _ => ⟨_, rfl⟩⟩

/-- The places where a task can be, and what it has done when it is there. -/
inductive Stands (task : PollTask) (own : Chronicle) (clock : Instant) :
    Option (Action PollPhase) → Prop where
  | starting (nothing : own = []) : Stands task own clock (some task.start)
  | sweeps (running : own.Running)
      (due : own.Rested task.interval clock ∨ own.SinceSweep [.pause, .resume]) :
      Stands task own clock (some (.done .sweeping))
  | sweeping {history : List Action.Step} {left : Action Unit} (running : own.Running)
      (leaves : task.sweep.Leaves history left) :
      Stands task own clock (some (left >>= fun _ => task.plan))
  | waits {deadline : Instant} (running : own.Running)
      (rested : own.Rested task.interval deadline) :
      Stands task own clock (some (.done (.waiting deadline)))
  | waiting {deadline : Instant} (running : own.Running)
      (rested : own.Rested task.interval deadline) :
      Stands task own clock (some (task.step (.waiting deadline)))
  | pausing (unended : own.Unended) (paused : own.SinceSweep [.pause]) :
      Stands task own clock (some (.ask (.report .pollingPaused) fun _ => .done .paused))
  | pauses (unended : own.Unended) (paused : own.SinceSweep [.pause]) :
      Stands task own clock (some (.done .paused))
  | paused (unended : own.Unended) (paused : own.SinceSweep [.pause]) :
      Stands task own clock (some (task.step .paused))
  | resuming (running : own.Running) (resumed : own.SinceSweep [.pause, .resume]) :
      Stands task own clock (some (.ask (.report .pollingResumed) fun _ => .done .sweeping))
  | stopping (told : own.AfterEnd []) :
      Stands task own clock (some (.ask (.report .pollingStopped) fun _ => .done .stopped))
  | stops (told : own.AfterEnd [.own ⟨.report .pollingStopped, ()⟩]) :
      Stands task own clock (some (.done .stopped))
  | ended (told : own.AfterEnd [.own ⟨.report .pollingStopped, ()⟩, .ended]) :
      Stands task own clock none

namespace Stands

variable {own : Chronicle} {clock : Instant} {rest : Option (Action PollPhase)}

theorem later {clock' : Instant} (h : task.Stands own clock rest) (hle : clock ≤ clock') :
    task.Stands own clock' rest := by
  cases h with
  | starting nothing => exact .starting nothing
  | sweeps running due => exact .sweeps running (due.imp_left fun rested => rested.mono hle)
  | sweeping running leaves => exact .sweeping running leaves
  | waits running rested => exact .waits running rested
  | waiting running rested => exact .waiting running rested
  | pausing unended paused => exact .pausing unended paused
  | pauses unended paused => exact .pauses unended paused
  | paused unended paused => exact .paused unended paused
  | resuming running resumed => exact .resuming running resumed
  | stopping told => exact .stopping told
  | stops told => exact .stops told
  | ended told => exact .ended told

theorem enter {phase : PollPhase} (h : task.Stands own clock (some (.done phase)))
    (hphase : phase ≠ .stopped) :
    task.Stands (own ++ [(clock, .entered phase)]) clock (some (task.step phase)) := by
  generalize hrest : some (Action.done phase) = rest at h
  cases h with
  | sweeps running due =>
    cases hrest
    exact .sweeping (running.quiet rfl) (.start task.sweep)
  | sweeping running leaves => cases ‹Action Unit› <;> cases hrest
  | waits running rested =>
    cases hrest
    exact .waiting (running.quiet rfl) (rested.snoc fun hworks => nomatch hworks.1)
  | pauses unended paused =>
    cases hrest
    exact .paused (unended.snoc (Happening.not_ends rfl)) (paused.snoc nofun)
  | stops told =>
    cases hrest
    exact absurd rfl hphase
  | _ => cases hrest

theorem finish (h : task.Stands own clock (some (.done .stopped))) :
    task.Stands (own ++ [(clock, .ended)]) clock none := by
  generalize hrest : some (Action.done PollPhase.stopped) = rest at h
  cases h with
  | sweeping running leaves => cases ‹Action Unit› <;> cases hrest
  | stops told =>
    have hended : ¬ Happening.Ends .ended := Happening.not_ends rfl
    exact .ended (told.snoc hended)
  | _ => cases hrest

variable {call : Call} {next : call.Answer → Action PollPhase} {answer : call.Answer}
  {queue : List Command}

/-- What a signal makes of a task that waits. -/
theorem obey {cache : Handle} {deadline : Option Instant} {running : Option PollPhase}
    {signal : Signal} (unended : own.Unended)
    (hdue : signal = .due → task.Stands (own ++ [(clock, .own ⟨.await cache deadline, .due⟩)]) clock
      (some (.done .sweeping)))
    (hresume : signal = .command .resume →
      task.Stands (own ++ [(clock, .own ⟨.await cache deadline, .command .resume⟩)]) clock
        (some (PollTask.obey running (.command .resume)))) :
    task.Stands (own ++ [(clock, .own ⟨.await cache deadline, signal⟩)]) clock
      (some (PollTask.obey running signal)) := by
  cases signal with
  | due => exact hdue rfl
  | closed => exact .stopping unended.ends
  | command command =>
    cases command with
    | pause =>
      have hends : ¬ Happening.Ends (.own ⟨.await cache deadline, .command .pause⟩) :=
        Happening.not_ends_of_signal rfl nofun nofun
      exact .pausing (unended.snoc hends) (Chronicle.sinceSweep_nil.snoc nofun)
    | resume => exact hresume rfl
    | stop => exact .stopping unended.ends

/-- A call of the task leads from one place to the next. -/
theorem called (h : task.Stands own life.clock (some (.ask call next)))
    (htimes : ∀ entry ∈ own, entry.1 ≤ life.clock)
    (hanswer : life.Answers queue ⟨call, answer⟩) :
    task.Stands (own ++ [(life.clock, .own ⟨call, answer⟩)]) life.clock (some (next answer)) := by
  generalize hrest : some (Action.ask call next) = rest at h
  cases h with
  | starting nothing =>
    cases hrest
    subst nothing
    have hsince : Chronicle.SinceSweep [] [.pause, .resume] := Chronicle.sinceSweep_start
    exact .sweeps (Chronicle.running_nil.quiet rfl) (.inr (hsince.snoc nofun))
  | @sweeping history left running leaves =>
    cases left with
    | done u =>
      -- all blocks are polled, and the time of the next sweep counts from now
      cases hrest
      obtain ⟨rfl, -⟩ := hanswer
      refine .waits (running.quiet rfl) ?_
      apply Chronicle.rested_of_times
      exact List.forall_mem_append.mpr ⟨htimes, List.forall_mem_singleton.mpr (Nat.le_refl _)⟩
    | ask polled rest =>
      cases hrest
      have hwork := ((task.sweepFrom_does 0 task.blocks).of_leaves leaves).2.1
      exact .sweeping (running.quiet (Happening.signal?_own hwork)) (leaves.next answer)
  | @waiting deadline running rested =>
    cases hrest
    show task.Stands _ _ (some (PollTask.obey (some (.waiting deadline)) answer))
    have hwait : ∀ cache deadline signal,
        ¬ Happening.Works (.own ⟨.await cache deadline, signal⟩) :=
      fun _ _ _ => Happening.not_works rfl
    apply Stands.obey running.unended
    · intro hdue
      subst hdue
      obtain ⟨⟨instant, hinstant, hle⟩, -⟩ := hanswer
      cases hinstant
      have hends : ¬ Happening.Ends (.own ⟨.await task.cache (some deadline), .due⟩) :=
        Happening.not_ends_of_signal rfl nofun nofun
      exact .sweeps (running.snoc nofun hends) (.inl ((rested.snoc (hwait _ _ _)).mono hle))
    · intro _
      have hends : ∀ deadline,
          ¬ Happening.Ends (.own ⟨.await task.cache deadline, .command .resume⟩) :=
        fun _ => Happening.not_ends_of_signal rfl nofun nofun
      exact .waits (running.snoc nofun (hends _)) (rested.snoc (hwait _ _ _))
  | pausing unended paused =>
    cases hrest
    exact .pauses (unended.snoc (Happening.not_ends rfl)) (paused.snoc nofun)
  | paused unended paused =>
    cases hrest
    show task.Stands _ _ (some (PollTask.obey none answer))
    apply Stands.obey unended
    · intro hdue
      -- without a deadline none comes
      subst hdue
      obtain ⟨⟨instant, hinstant, -⟩, -⟩ := hanswer
      cases hinstant
    · intro _
      have hends : ¬ Happening.Ends (.own ⟨.await task.cache none, .command .resume⟩) :=
        Happening.not_ends_of_signal rfl nofun nofun
      exact .resuming ⟨Chronicle.resumed_of_resume rfl, unended.snoc hends⟩ (paused.snoc nofun)
  | resuming running resumed =>
    cases hrest
    exact .sweeps (running.quiet rfl) (.inr (resumed.snoc nofun))
  | stopping told =>
    cases hrest
    exact .stops (told.snoc (Happening.not_ends rfl))
  | _ => cases hrest

end Stands

namespace Lives

variable {before sweep rest : Chronicle} {entry : Instant × Happening} {time : Instant}
  {phase : PollPhase}

theorem times (h : task.Lives manager chronicle life) :
    ∀ entry ∈ chronicle, entry.1 ≤ life.clock := by
  induction h with
  | start clock => exact List.forall_mem_nil _
  | wait h hclock ih => exact fun entry hentry => Nat.le_trans (ih entry hentry) hclock
  | @move chronicle life after happening h hmove ih =>
    have hclock : after.clock = life.clock := by
      cases hmove <;> rfl
    rw [hclock]
    exact List.forall_mem_append.mpr ⟨ih, List.forall_mem_singleton.mpr (Nat.le_refl _)⟩

/-- Wherever the task is, it has done what it does to get there. -/
theorem stands (h : task.Lives manager chronicle life) :
    task.Stands chronicle.tasks life.clock life.rest := by
  induction h with
  | start clock => exact .starting rfl
  | wait h hclock ih => exact ih.later hclock
  | @move chronicle life after happening h hmove ih =>
    rw [Chronicle.tasks_append]
    cases hmove with
    | own hrest hanswer =>
      rw [hrest] at ih
      exact ih.called (fun entry hentry => h.times entry (List.mem_of_mem_filter hentry)) hanswer
    | enter hrest hphase =>
      rw [hrest] at ih
      exact ih.enter hphase
    | finish hrest =>
      rw [hrest] at ih
      exact ih.finish
    -- what others do is not seen in what the task has done
    | accept | refuse | drop =>
      show task.Stands (chronicle.tasks ++ []) _ _
      rw [List.append_nil]
      exact ih

/-- Commands are received in the order in which they were sent. -/
theorem fifo (h : task.Lives manager chronicle life) :
    chronicle.accepted = chronicle.received ++ life.queue := by
  induction h with
  | start clock => rfl
  | wait h hclock ih => exact ih
  | @move chronicle life after happening h hmove ih =>
    have haccepted : Chronicle.accepted [(life.clock, happening)] = happening.accepted?.toList := by
      cases h : happening.accepted? with
      | none => exact List.filterMap_cons_none h
      | some command => exact List.filterMap_cons_some h
    rw [Chronicle.accepted_append, Chronicle.received_append, ih, haccepted,
      Chronicle.received_singleton, List.append_assoc, hmove.queue, List.append_assoc]

/-- When the task entered a phase it had come to the end of the one before. -/
theorem entered (h : task.Lives manager chronicle life)
    (hsplit : chronicle = before ++ (time, .entered phase) :: rest) :
    ∃ earlier, task.Lives manager before earlier ∧ earlier.clock = time ∧
      earlier.rest = some (.done phase) := by
  induction h generalizing rest with
  | start clock => cases before <;> cases hsplit
  | wait h hclock ih => exact ih hsplit
  | move h hmove ih =>
    cases Chronicle.split_snoc hsplit with
    | inl hlast =>
      obtain ⟨-, rfl, heq⟩ := hlast
      cases heq
      cases hmove with
      | enter hrest hphase => exact ⟨_, h, rfl, hrest⟩
    | inr hearlier =>
      obtain ⟨_, -, hchronicle⟩ := hearlier
      exact ih hchronicle

/-- While no other phase was entered, the task is where the calls of its sweep have led it. -/
theorem sweep_left (h : task.Lives manager chronicle life)
    (hsplit : chronicle = before ++ (time, .entered .sweeping) :: sweep)
    (hsweep : sweep.InOnePhase) :
    ∃ left, life.rest = some left ∧ (task.step .sweeping).Leaves sweep.calls left := by
  induction h generalizing sweep with
  | start clock => cases before <;> cases hsplit
  | wait h hclock ih => exact ih hsplit hsweep
  | @move chronicle life after happening h hmove ih =>
    cases Chronicle.split_snoc hsplit with
    | inl hlast =>
      obtain ⟨rfl, -, heq⟩ := hlast
      cases heq
      cases hmove with
      | enter hrest hphase => exact ⟨_, rfl, .start _⟩
    | inr hearlier =>
      obtain ⟨rest, rfl, hchronicle⟩ := hearlier
      obtain ⟨left, hleft, hleaves⟩ :=
        ih hchronicle fun entry hentry => hsweep entry (List.mem_append_left _ hentry)
      rw [Chronicle.calls_append]
      cases hmove with
      | own hrest hanswer =>
        rw [hleft] at hrest
        cases hrest
        exact ⟨_, rfl, hleaves.next _⟩
      | enter hrest hphase =>
        exact absurd rfl (hsweep _ (List.mem_append_right _ (List.mem_singleton_self _)) _)
      | finish hrest =>
        -- a sweep is followed by a wait
        rw [hleft] at hrest
        cases hrest
        obtain ⟨deadline, hphase⟩ := (sweep_does.of_leaves hleaves).2
        cases hphase
      | refuse hopen hended hruns =>
        rw [hleft] at hended
        cases hended
      | accept | drop =>
        refine ⟨left, hleft, ?_⟩
        show (task.step .sweeping).Leaves (Chronicle.calls rest ++ []) left
        rw [List.append_nil]
        exact hleaves

theorem received_sweep (h : task.Lives manager chronicle life)
    (hsplit : chronicle = before ++ (time, .entered .sweeping) :: sweep)
    (hsweep : sweep.InOnePhase) : sweep.received = [] := by
  obtain ⟨left, -, hleaves⟩ := h.sweep_left hsplit hsweep
  exact Chronicle.received_eq_nil (sweep_does.of_leaves hleaves).1

/-- Where a sweep is begun there is no pause, and there was a rest since the sweep before. -/
theorem sweeps (h : task.Lives manager chronicle life)
    (hrest : life.rest = some (.done .sweeping)) :
    chronicle.tasks.Running ∧ (chronicle.tasks.Rested task.interval life.clock ∨
      chronicle.tasks.SinceSweep [.pause, .resume]) := by
  have hstands := h.stands
  rw [hrest] at hstands
  generalize hleft : some (Action.done PollPhase.sweeping) = left at hstands
  cases hstands with
  | sweeps running due => exact ⟨running, due⟩
  | sweeping running leaves => cases ‹Action Unit› <;> cases hleft
  | _ => cases hleft

theorem resumed (h : task.Lives manager chronicle life)
    (hrest : life.rest = some (.done .sweeping)) (hsplit : chronicle = before ++ entry :: rest)
    (hpause : entry.2.received? = some .pause) : .resume ∈ rest.received := by
  have htasks : entry.2.isTasks = true := by
    cases hentry : entry.2.isTasks with
    | true => rfl
    | false =>
      rw [Happening.received?_of_not_tasks hentry] at hpause
      cases hpause
  have hsplit' := congrArg Chronicle.tasks hsplit
  rw [Chronicle.tasks_split htasks] at hsplit'
  have hresume := (h.sweeps hrest).1.resumed _ _ _ hsplit' hpause
  rw [Chronicle.received_tasks] at hresume
  exact hresume

/-- Unless a pause and a resumption come between, the task rests between two sweeps. -/
theorem rested (h : task.Lives manager chronicle life)
    (hrest : life.rest = some (.done .sweeping))
    (hsplit : chronicle = before ++ (time, .entered .sweeping) :: rest)
    (hpause : ¬ [Command.pause, .resume].Sublist rest.received) :
    chronicle.Rested task.interval life.clock := by
  have hsplit' := congrArg Chronicle.tasks hsplit
  rw [Chronicle.tasks_split rfl] at hsplit'
  cases (h.sweeps hrest).2 with
  | inl hrested =>
    intro entry hentry hworks
    apply hrested entry _ hworks
    refine List.mem_filter.mpr ⟨hentry, ?_⟩
    cases hhappening : entry.2 with
    | own step => rfl
    | _ =>
      rw [hhappening] at hworks
      cases hworks.1
  | inr hsince =>
    have hboth := hsince _ _ _ hsplit'
    rw [Chronicle.received_tasks] at hboth
    exact absurd hboth hpause

/-- Told to stop, the task reports it and ends, and nothing keeps it from that. -/
theorem stopped (h : task.Lives manager chronicle life)
    (hsplit : chronicle = before ++ entry :: rest)
    (hends : entry.2.Ends) :
    rest.tasks.map (·.2) <+: [.own ⟨.report .pollingStopped, ()⟩, .ended] ∧
      (life.rest = none ∨ ∃ happening after, happening.isTasks ∧
        task.Moves manager life happening after) := by
  have htasks : entry.2.isTasks = true := by
    cases hhappening : entry.2 with
    | sent | dropped =>
      rw [hhappening] at hends
      cases hends with
      | inl heq => cases heq
      | inr heq => cases heq
    | _ => rfl
  have hsplit' := congrArg Chronicle.tasks hsplit
  rw [Chronicle.tasks_split htasks] at hsplit'
  have hunended : ¬ chronicle.tasks.Unended := by
    intro hunended
    apply hunended entry _ hends
    rw [hsplit']
    exact List.mem_append_right _ List.mem_cons_self
  have hstands := h.stands
  generalize hleft : life.rest = left at hstands
  cases hstands with
  | starting nothing => exact absurd (nothing ▸ List.forall_mem_nil _) hunended
  | sweeps running | sweeping running | waits running | waiting running | resuming running =>
    exact absurd running.unended hunended
  | pausing unended | pauses unended | paused unended => exact absurd unended hunended
  | stopping told =>
    rw [told _ _ _ hsplit' hends]
    have hmove : task.Moves manager life (.own ⟨.report .pollingStopped, ()⟩)
        { life with queue := life.queue, rest := some (.done .stopped) } := .own hleft rfl
    exact ⟨⟨_, rfl⟩, .inr ⟨_, _, rfl, hmove⟩⟩
  | stops told =>
    rw [told _ _ _ hsplit' hends]
    exact ⟨⟨[.ended], rfl⟩, .inr ⟨.ended, _, rfl, .finish hleft⟩⟩
  | ended told =>
    rw [told _ _ _ hsplit' hends]
    exact ⟨⟨[], rfl⟩, .inl rfl⟩

theorem rest_of_ended (h : task.Lives manager chronicle life)
    (hended : (time, .ended) ∈ chronicle) : life.rest = none := by
  induction h with
  | start clock => cases hended
  | wait h hclock ih => exact ih hended
  | move h hmove ih =>
    cases List.mem_append.mp hended with
    | inl hearlier =>
      have hnone := ih hearlier
      cases hmove with
      | own hrest | enter hrest | finish hrest => cases hnone.symm.trans hrest
      | accept hopen halive => exact absurd (hnone ▸ halive) nofun
      | refuse | drop => exact hnone
    | inr hlast =>
      cases List.mem_singleton.mp hlast
      cases hmove with
      | finish => rfl

/-- Nothing is sent to a task that has ended. -/
theorem refused (h : task.Lives manager chronicle life)
    (hsplit : chronicle = before ++ (time, .ended) :: rest) {instant : Instant}
    {command : Command} {result : Except RequestError Unit}
    (hsent : (instant, .sent command result) ∈ rest) : result = .error .shutdown := by
  induction h generalizing rest with
  | start clock => cases before <;> cases hsplit
  | wait h hclock ih => exact ih hsplit hsent
  | move h hmove ih =>
    cases Chronicle.split_snoc hsplit with
    | inl hlast =>
      rw [hlast.1] at hsent
      cases hsent
    | inr hearlier =>
      obtain ⟨earlier, rfl, hchronicle⟩ := hearlier
      cases List.mem_append.mp hsent with
      | inl hmem => exact ih hchronicle hmem
      | inr hmem =>
        cases List.mem_singleton.mp hmem
        have hnone := h.rest_of_ended
          (hchronicle ▸ List.mem_append_right before List.mem_cons_self)
        cases hmove with
        | accept hopen halive => exact absurd (hnone ▸ halive) nofun
        | refuse hopen hnone hruns => exact send_result hruns

theorem earlier (h : task.Lives manager chronicle life) (hsplit : chronicle = before ++ rest) :
    ∃ life', task.Lives manager before life' := by
  induction h generalizing rest with
  | start clock =>
    cases before with
    | nil => exact ⟨_, .start clock⟩
    | cons => cases hsplit
  | wait h hclock ih => exact ih hsplit
  | @move chronicle life after happening h hmove ih =>
    cases rest with
    | nil =>
      rw [List.append_nil] at hsplit
      rw [← hsplit]
      exact ⟨after, h.move hmove⟩
    | cons first rest =>
      cases Chronicle.split_snoc hsplit with
      | inl hlast =>
        rw [← hlast.2.1]
        exact ⟨life, h⟩
      | inr hearlier =>
        obtain ⟨_, -, hchronicle⟩ := hearlier
        exact ih hchronicle

/-- Once a manager is dropped nothing is sent. -/
theorem accepted_of_dropped (h : task.Lives manager chronicle life)
    (hsplit : chronicle = before ++ rest) (hdropped : (time, .dropped) ∈ before) :
    life.isOpen = false ∧ rest.accepted = [] := by
  induction h generalizing before rest with
  | start clock =>
    cases before with
    | nil => cases hdropped
    | cons => cases hsplit
  | wait h hclock ih => exact ih hsplit hdropped
  | @move chronicle life after happening h hmove ih =>
    have hclosed : ∀ {before' rest' : Chronicle}, chronicle = before' ++ rest' →
        (time, .dropped) ∈ before' →
        after.isOpen = false ∧ Chronicle.accepted (rest' ++ [(life.clock, happening)]) = [] := by
      intro before' rest' hchronicle hmem
      obtain ⟨hopen, hnone⟩ := ih hchronicle hmem
      rw [Chronicle.accepted_append, hnone]
      cases hmove with
      | own | enter | finish => exact ⟨hopen, rfl⟩
      | accept hopen' | refuse hopen' | drop hopen' => exact absurd (hopen.symm.trans hopen') nofun
    cases List.eq_nil_or_concat rest with
    | inl hnil =>
      subst hnil
      rw [List.append_nil] at hsplit
      subst hsplit
      cases List.mem_append.mp hdropped with
      | inl hmem => exact ⟨(hclosed (List.append_nil _).symm hmem).1, rfl⟩
      | inr hmem =>
        cases List.mem_singleton.mp hmem
        cases hmove with
        | drop => exact ⟨rfl, rfl⟩
    | inr hconcat =>
      obtain ⟨rest', last, hconcat⟩ := hconcat
      rw [List.concat_eq_append] at hconcat
      subst hconcat
      rw [← List.append_assoc] at hsplit
      obtain ⟨hchronicle, hlast⟩ := List.append_inj' hsplit rfl
      cases hlast
      exact hclosed hchronicle hdropped

/-- Either a command has been received, or all that was received was ahead of it. -/
theorem received_or (h : task.Lives manager (before ++ rest) life) {ahead behind : List Command}
    {command : Command}
    (hqueue : before.accepted = before.received ++ (ahead ++ command :: behind)) :
    ahead ++ [command] <+: rest.received ∨ rest.received <+: ahead := by
  have hfifo := h.fifo
  rw [Chronicle.accepted_append, Chronicle.received_append, hqueue] at hfifo
  simp only [List.append_assoc] at hfifo
  cases List.append_eq_append_iff.mp (List.append_cancel_left hfifo) with
  | inl hmore =>
    obtain ⟨more, hreceived, hrest⟩ := hmore
    cases more with
    | nil => exact .inr ⟨[], by rw [hreceived, List.append_nil, List.append_nil]⟩
    | cons first more =>
      have hfirst : command = first := List.head_eq_of_cons_eq hrest
      subst hfirst
      exact .inl ⟨more, by rw [hreceived, List.append_assoc]; rfl⟩
  | inr hfewer =>
    obtain ⟨fewer, hahead, -⟩ := hfewer
    exact .inr ⟨fewer, hahead.symm⟩

theorem received_of_dropped (h : task.Lives manager (before ++ rest) life) {ahead : List Command}
    (hdropped : (time, .dropped) ∈ before)
    (hqueue : before.accepted = before.received ++ ahead) : rest.received <+: ahead := by
  have hfifo := h.fifo
  rw [Chronicle.accepted_append, Chronicle.received_append, hqueue,
    (h.accepted_of_dropped rfl hdropped).2, List.append_nil, List.append_assoc] at hfifo
  exact ⟨life.queue, (List.append_cancel_left hfifo).symm⟩

end Lives

/-- A task that has not ended can go on, unless it waits for a command or a deadline that has not
come. -/
theorem enabled {left : Action PollPhase} (hrest : life.rest = some left) :
    (∃ happening after, happening.isTasks ∧ task.Moves manager life happening after) ∨
      life.queue = [] ∧ life.isOpen ∧ ∃ cache deadline next,
        left = .ask (.await cache deadline) next ∧
          ∀ instant, deadline = some instant → life.clock < instant := by
  have hasks : ∀ {call : Call} {next : call.Answer → Action PollPhase} {answer : call.Answer}
      {queue : List Command}, life.rest = some (.ask call next) →
        life.Answers queue ⟨call, answer⟩ →
        ∃ happening after, happening.isTasks ∧ task.Moves manager life happening after :=
    fun hrest hanswer => ⟨_, _, rfl, .own hrest hanswer⟩
  cases left with
  | done phase =>
    by_cases hphase : phase = .stopped
    · subst hphase
      exact .inl ⟨_, _, rfl, .finish hrest⟩
    · exact .inl ⟨_, _, rfl, .enter hrest hphase⟩
  | ask call next =>
    obtain ⟨answer⟩ := Action.nonempty_answer call
    cases call with
    | await cache deadline =>
      cases hqueue : life.queue with
      | cons command queue =>
        have hanswer : life.Answers queue ⟨.await cache deadline, .command command⟩ := hqueue
        exact .inl (hasks hrest hanswer)
      | nil =>
        cases hopen : life.isOpen with
        | false =>
          have hanswer : life.Answers [] ⟨.await cache deadline, .closed⟩ := ⟨hqueue, hopen, rfl⟩
          exact .inl (hasks hrest hanswer)
        | true =>
          by_cases hdue : ∃ instant, deadline = some instant ∧ instant ≤ life.clock
          · have hanswer : life.Answers life.queue ⟨.await cache deadline, .due⟩ := ⟨hdue, rfl⟩
            exact .inl (hasks hrest hanswer)
          · refine .inr ⟨rfl, rfl, cache, deadline, next, rfl, ?_⟩
            intro instant hinstant
            exact Nat.lt_of_not_le fun hle => hdue ⟨instant, hinstant, hle⟩
    | now =>
      have hanswer : life.Answers life.queue ⟨.now, life.clock⟩ := ⟨rfl, rfl⟩
      exact .inl (hasks hrest hanswer)
    | _ =>
      let after : Life := { life with queue := life.queue, rest := some (next answer) }
      exact .inl ⟨_, after, rfl, .own hrest rfl⟩

/-- The commands of a polling task, in any order with its sweeps and its deadlines. They are
received in the order in which they were sent. Between a pause and a resumption no sweep is begun.
Told to stop, or once it finds that nobody can command it any more, the task polls no block again
and ends, and what is sent then is refused. A sweep polls every block once and in order, whatever
comes of it. Without a pause there is a rest of the poll interval between two sweeps. What is
queued when a sweep ends is received before the next one, unless there is such a rest as well or a
pause is resumed before; with no manager any more there is no next sweep then. And nothing but
commands or deadlines is waited for. -/
theorem commands_obeyed {config : CacheConfig} {engine : Engine} {created : List Action.Step}
    (hcreated : (config.create engine).Runs created (manager, task))
    (h : task.Lives manager chronicle life) :
    chronicle.accepted = chronicle.received ++ life.queue ∧
    (∀ before entry middle time after,
      chronicle = before ++ entry :: middle ++ (time, .entered .sweeping) :: after →
      entry.2.received? = some .pause → .resume ∈ Chronicle.received middle) ∧
    (∀ before entry after, chronicle = before ++ entry :: after → entry.2.Ends →
      (Chronicle.tasks after).map (·.2) <+: [.own ⟨.report .pollingStopped, ()⟩, .ended] ∧
        (life.rest = none ∨ ∃ happening next, happening.isTasks ∧
          task.Moves manager life happening next)) ∧
    (∀ before time after instant command result, chronicle = before ++ (time, .ended) :: after →
      (instant, .sent command result) ∈ after → result = .error .shutdown) ∧
    (∀ before time sweep, chronicle = before ++ (time, .entered .sweeping) :: sweep →
      Chronicle.InOnePhase sweep → ∃ polled rest histories under,
        config.blocks = polled ++ rest ∧ Chronicle.calls sweep = histories.flatten ++ under ∧
        List.Forall₂ task.Polled polled.zipIdx histories ∧
        task.UnderWay polled.length rest under) ∧
    (∀ before time sweep time' phase after,
      chronicle =
        before ++ (time, .entered .sweeping) :: sweep ++ (time', .entered phase) :: after →
      Chronicle.InOnePhase sweep → ∃ (histories : List (List Action.Step)) (instant : Instant),
        Chronicle.calls sweep = histories.flatten ++ [⟨.now, instant⟩] ∧
        List.Forall₂ task.Polled config.blocks.zipIdx histories ∧
        phase = .waiting (instant + config.pollInterval)) ∧
    (∀ before time middle time' after,
      chronicle =
        before ++ (time, .entered .sweeping) :: middle ++ (time', .entered .sweeping) :: after →
      .pause ∉ Chronicle.received middle →
      ∀ entry ∈ middle, entry.2.Works → entry.1 + config.pollInterval ≤ time') ∧
    (∀ before time sweep middle time' after ahead,
      chronicle = before ++ (time, .entered .sweeping) :: sweep ++ middle ++
        (time', .entered .sweeping) :: after →
      Chronicle.InOnePhase sweep → ¬ [Command.pause, .resume].Sublist ahead →
      (∃ entry ∈ sweep, entry.2.Works ∧ time' < entry.1 + config.pollInterval) →
      (∀ command behind, Chronicle.accepted (before ++ (time, .entered .sweeping) :: sweep) =
          Chronicle.received (before ++ (time, .entered .sweeping) :: sweep) ++
            (ahead ++ command :: behind) →
        ahead ++ [command] <+: Chronicle.received middle) ∧
      ∀ instant, (instant, .dropped) ∈ before ++ (time, .entered .sweeping) :: sweep →
        Chronicle.accepted (before ++ (time, .entered .sweeping) :: sweep) ≠
          Chronicle.received (before ++ (time, .entered .sweeping) :: sweep) ++ ahead) ∧
    (∀ left, life.rest = some left →
      (∃ happening next, happening.isTasks ∧ task.Moves manager life happening next) ∨
        life.queue = [] ∧ life.isOpen ∧ ∃ cache deadline next,
          left = .ask (.await cache deadline) next ∧
            ∀ instant, deadline = some instant → life.clock < instant) := by
  obtain ⟨cache, -, htask⟩ := CacheManager.created_eq hcreated
  have hblocks : config.blocks = task.blocks := by rw [htask]
  have hinterval : config.pollInterval = task.interval := by rw [htask]
  rw [hblocks, hinterval]
  refine ⟨h.fifo, ?paused, ?stopped, ?refused, ?underWay, ?swept, ?rested, ?queued,
    fun _ => enabled⟩
  case paused =>
    intro before entry middle time after hsplit hpause
    obtain ⟨earlier, hearlier, -, hrest⟩ := h.entered hsplit
    exact hearlier.resumed hrest rfl hpause
  case stopped => exact fun _ _ _ hsplit hends => h.stopped hsplit hends
  case refused => exact fun _ _ _ _ _ _ hsplit hsent => h.refused hsplit hsent
  case underWay =>
    intro before time sweep hsplit hsweep
    obtain ⟨left, -, hleaves⟩ := h.sweep_left hsplit hsweep
    exact sweep_underWay hleaves
  case swept =>
    intro before time sweep time' phase after hsplit hsweep
    obtain ⟨earlier, hearlier, -, hrest⟩ := h.entered hsplit
    obtain ⟨left, hleft, hleaves⟩ := hearlier.sweep_left rfl hsweep
    rw [hrest] at hleft
    cases hleft
    exact sweep_runs hleaves.runs
  case rested =>
    intro before time middle time' after hsplit hpause entry hentry hworks
    obtain ⟨earlier, hearlier, rfl, hrest⟩ := h.entered hsplit
    have hnot : ¬ [Command.pause, .resume].Sublist (Chronicle.received middle) :=
      fun hboth => hpause (hboth.subset List.mem_cons_self)
    exact hearlier.rested hrest rfl hnot entry
      (List.mem_append_right _ (List.mem_cons_of_mem _ hentry)) hworks
  case queued =>
    intro before time sweep middle time' after ahead hsplit hsweep hahead hearly
    obtain ⟨later, hlater, rfl, hrest⟩ := h.entered hsplit
    obtain ⟨_, hended⟩ := hlater.earlier rfl
    have hnone := hended.received_sweep rfl hsweep
    -- what is received on the way is ahead of the command, so it does not resume a pause
    have hnot : ¬ Chronicle.received middle <+: ahead := by
      intro hfewer
      obtain ⟨entry, hentry, hworks, hlt⟩ := hearly
      have hmiddle : ¬ [Command.pause, .resume].Sublist (Chronicle.received (sweep ++ middle)) := by
        intro hboth
        rw [Chronicle.received_append, hnone, List.nil_append] at hboth
        exact hahead (hboth.trans hfewer.sublist)
      have hchronicle : before ++ (time, .entered .sweeping) :: sweep ++ middle =
          before ++ (time, .entered .sweeping) :: (sweep ++ middle) := List.append_assoc _ _ _
      have hle := hlater.rested hrest hchronicle hmiddle entry
        (List.mem_append_left _ (List.mem_append_right _ (List.mem_cons_of_mem _ hentry))) hworks
      exact absurd hlt (Nat.not_lt.mpr hle)
    constructor
    · intro command behind hqueue
      cases hlater.received_or hqueue with
      | inl hreceived => exact hreceived
      | inr hfewer => exact absurd hfewer hnot
    · intro instant hdropped hqueue
      exact hnot (hlater.received_of_dropped hdropped hqueue)

/-- A transport with an open connection. -/
def openNet : Tcp.Transport :=
  { settings := { host := "plc", port := 502 }, host := .v4 [10, 0, 0, 7], stream := some 0
    connection := .connected }

/-- The calls of an exchange over an open connection. -/
def exchangeCalls (request reply : Bytes) : List Action.Step :=
  [⟨.acquireTransport 0, .tcp openNet⟩,
    ⟨.transmit 0 request openNet.settings.timeout, .ok ()⟩,
    ⟨.receive 0 Frame.maxLength openNet.settings.timeout, .ok reply⟩,
    ⟨.releaseTransport 0 (.tcp { openNet with health := ⟨.on, none⟩ }), ()⟩]

/-- The calls of an exchange over an open connection that is not answered in time. -/
def silentCalls (request : Bytes) : List Action.Step :=
  [⟨.acquireTransport 0, .tcp openNet⟩,
    ⟨.transmit 0 request openNet.settings.timeout, .ok ()⟩,
    ⟨.receive 0 Frame.maxLength openNet.settings.timeout, .error .elapsed⟩, ⟨.close 0, ()⟩,
    ⟨.report (.disconnected openNet.address), ()⟩,
    ⟨.releaseTransport 0 (.tcp { openNet with
      stream := none, connection := .disconnected
      health := ⟨.unknown, some (openNet.wording .responseTimeout)⟩ }), ()⟩]

/-- The calls of a poll of two registers. -/
def pairCalls (index : Nat) (taken : Instant) : List Action.Step :=
  exchangeCalls [1, 0, 0, 0, 0, 6, 1, 3, 0, 10, 0, 2] [1, 0, 0, 0, 0, 7, 1, 3, 4, 0, 7, 0, 8] ++
    [⟨.now, taken⟩, ⟨.publish 0 index ⟨.registers [7, 8], taken⟩, ()⟩]

theorem pairCalls_run (index : Nat) (taken : Instant) {blocks : List CacheBlock}
    {interval : Duration} :
    (poll ⟨⟨⟨1⟩, .tcp, 0⟩, 0, blocks, interval⟩ index ⟨.readHoldingRegisters, ⟨10, 2⟩⟩).Runs
      (pairCalls index taken) ⟨index, .ok ⟨.registers [7, 8], taken⟩⟩ := by
  have hexchange : (Engine.exchange ⟨⟨1⟩, .tcp, 0⟩ 3 [0, 10, 0, 2] 6).Runs
      ((pairCalls index taken).take 4) (.ok [3, 4, 0, 7, 0, 8]) :=
    .ask (.ask (.ask (.ask (.done _))))
  exact poll_runs (Action.runs_bind_iff.mpr ⟨_, [], _, rfl, hexchange, .done _⟩)

/-- The calls of a poll of these registers that is not answered. -/
def lostCalls : List Action.Step :=
  silentCalls [1, 0, 0, 0, 0, 6, 1, 3, 0, 10, 0, 2] ++
    [⟨.report (.pollFailed ⟨.readHoldingRegisters, ⟨10, 2⟩⟩ .responseTimeout), ()⟩]

theorem lostCalls_run (index : Nat) {blocks : List CacheBlock} {interval : Duration} :
    (poll ⟨⟨⟨1⟩, .tcp, 0⟩, 0, blocks, interval⟩ index ⟨.readHoldingRegisters, ⟨10, 2⟩⟩).Runs
      lostCalls ⟨index, .error .responseTimeout⟩ := by
  have hexchange : (Engine.exchange ⟨⟨1⟩, .tcp, 0⟩ 3 [0, 10, 0, 2] 6).Runs
      (silentCalls [1, 0, 0, 0, 0, 6, 1, 3, 0, 10, 0, 2]) (.error .responseTimeout) :=
    .ask (.ask (.ask (.ask (.ask (.ask (.done _))))))
  exact poll_fails (Action.runs_bind_iff.mpr ⟨_, [], _, rfl, hexchange, .done _⟩)

/-- A task with one block is paused during its first sweep, resumed, and stopped during its second
one, in which the block cannot be read; after that it cannot be paused any more. -/
theorem commands_obeyed_resumed :
    let block : CacheBlock := ⟨.readHoldingRegisters, ⟨10, 2⟩⟩
    let config : CacheConfig := ⟨[block], 3, none⟩
    let engine : Engine := ⟨⟨1⟩, .tcp, 0⟩
    let manager : CacheManager := ⟨engine, 0, [block], config.maxDelta⟩
    let task : PollTask := ⟨engine, 0, [block], 3⟩
    let first : Chronicle :=
      [(0, .own ⟨.report (.pollingStarted 1), ()⟩), (0, .entered .sweeping),
        (0, .sent .pause (.ok ()))] ++ (pairCalls 0 0).map (fun step => (0, .own step)) ++
      [(0, .own ⟨.now, (0 : Nat)⟩), (0, .entered (.waiting 3))]
    let pause : Instant × Happening := (0, .own ⟨.await 0 (some 3), .command .pause⟩)
    let paused : Chronicle :=
      [(0, .own ⟨.report .pollingPaused, ()⟩), (0, .entered .paused), (4, .sent .resume (.ok ())),
        (4, .sent .stop (.ok ())), (4, .own ⟨.await 0 none, .command .resume⟩),
        (4, .own ⟨.report .pollingResumed, ()⟩)]
    let second : Chronicle :=
      lostCalls.map (fun step => (4, .own step)) ++ [(4, .own ⟨.now, (4 : Nat)⟩)]
    let stop : Instant × Happening := (4, .own ⟨.await 0 (some 7), .command .stop⟩)
    let stopped : Chronicle := [(4, .own ⟨.report .pollingStopped, ()⟩), (4, .ended),
      (9, .sent .pause (.error .shutdown))]
    let chronicle : Chronicle := first ++ pause :: paused ++ (4, .entered .sweeping) :: second ++
      (4, .entered (.waiting 7)) :: stop :: stopped
    (config.create engine).Runs [⟨.newCache [block], (0 : Nat)⟩] (manager, task) ∧
    task.Lives manager chronicle ⟨9, [], true, none⟩ ∧
    chronicle.accepted = [.pause, .resume, .stop] ∧ .resume ∈ Chronicle.received paused ∧
    (∃ histories instant, Chronicle.calls second = histories.flatten ++ [⟨.now, instant⟩] ∧
      List.Forall₂ task.Polled [(block, 0)] histories) ∧
    stopped.tasks.map (·.2) <+: [.own ⟨.report .pollingStopped, ()⟩, .ended] := by
  intro block config engine manager task first pause paused second stop stopped chronicle
  have hcreated : (config.create engine).Runs [⟨.newCache [block], (0 : Nat)⟩] (manager, task) :=
    .ask (.done _)
  have hsweep : task.step .sweeping = task.poll 0 block >>= fun _ => task.plan := by
    show task.sweepFrom 0 [block] >>= _ = _
    rw [sweepFrom_cons, bind_assoc]
    rfl
  have hbegun : task.Lives manager (first.take 3)
      ⟨0, [.pause], true, some (task.poll 0 block >>= fun _ => task.plan)⟩ := by
    rw [← hsweep]
    exact Lives.begun.accept .pause (by decide)
  have hpair : ∀ step ∈ pairCalls 0 0, ∀ rest,
      Life.Answers ⟨0, [.pause], true, rest⟩ [.pause] step := by
    simp [pairCalls, exchangeCalls, Life.Answers]
    rfl
  have hpolled := hbegun.calls (pairCalls_run 0 0) hpair
  have hwaiting : task.Lives manager first
      ⟨0, [.pause], true, some (task.step (.waiting 3))⟩ :=
    (hpolled.own (0 : Nat) ⟨rfl, rfl⟩).enter nofun
  have hpausing := ((hwaiting.own (.command .pause) rfl).own () rfl).enter nofun
  have hpaused := (hpausing.wait (Nat.zero_le 4)).accept .resume (by decide)
  have htold := hpaused.accept .stop (by decide)
  have hresumed : task.Lives manager (first ++ pause :: paused)
      ⟨4, [.stop], true, some (.done .sweeping)⟩ := (htold.own (.command .resume) rfl).own () rfl
  have hlost : ∀ step ∈ lostCalls, ∀ rest, Life.Answers ⟨4, [.stop], true, rest⟩ [.stop] step := by
    simp [lostCalls, silentCalls, Life.Answers]
  have hsweeping := hresumed.enter nofun
  rw [hsweep] at hsweeping
  have hpolled := hsweeping.calls (lostCalls_run 0) hlost
  have hwaiting : task.Lives manager
      (first ++ pause :: paused ++ (4, .entered .sweeping) :: second ++
        [(4, .entered (.waiting 7))])
      ⟨4, [.stop], true, some (task.step (.waiting 7))⟩ := by
    have hplanned : task.Lives manager _ ⟨4, [.stop], true, some (.done (.waiting 7))⟩ :=
      hpolled.own (4 : Nat) ⟨rfl, rfl⟩
    have hswept := hplanned.enter nofun
    simpa only [second, List.append_assoc, List.cons_append, List.nil_append] using hswept
  have hstopping := (hwaiting.own (.command .stop) rfl).own () rfl
  have hended : task.Lives manager _ ⟨9, [], true, none⟩ :=
    .wait hstopping.finish (Nat.le_add_right 4 5)
  have hrefused : task.Lives manager chronicle ⟨9, [], true, none⟩ := by
    have hlast := hended.refuse .pause
    simpa only [chronicle, stopped, List.append_assoc, List.cons_append, List.nil_append]
      using hlast
  obtain ⟨hfifo, hpauses, hstops, -, -, hswept, -⟩ := commands_obeyed hcreated hrefused
  have haccepted : chronicle.accepted = [.pause, .resume, .stop] := rfl
  have hresume := hpauses first pause paused 4 (second ++
    (4, .entered (.waiting 7)) :: stop :: stopped) (by simp [chronicle]) rfl
  have hlast := (hstops (first ++ pause :: paused ++ (4, .entered .sweeping) :: second ++
    [(4, .entered (.waiting 7))]) stop stopped (by simp [chronicle]) (.inl rfl)).1
  have honePhase : Chronicle.InOnePhase second := by
    simp [Chronicle.InOnePhase, second, or_imp, forall_and]
  obtain ⟨histories, instant, hcalls, hpolls, -⟩ :=
    hswept (first ++ pause :: paused) 4 second 4 (.waiting 7) (stop :: stopped) rfl honePhase
  exact ⟨hcreated, hrefused, haccepted, hresume, ⟨histories, instant, hcalls, hpolls⟩, hlast⟩

end PollTask

end ModbusMaster
