import ModbusMaster.Proofs.Cache.Commands

/-!
The entries of a cache in the course of time. What has been published so far stands in the
chronicle of the polling task, so the entries are known after every happening. The task looks at
the clock right before it publishes; what is published later was therefore taken later as well
(`Leads.published_le`).
-/

namespace ModbusMaster

/-- The entry of a cache that gets a snapshot, with the snapshot. -/
def Happening.published? (cache : Handle) : Happening → Option (Nat × Snapshot)
  | own ⟨.publish handle index snapshot, _⟩ =>
      if handle = cache then some (index, snapshot) else none
  | _ => none

/-- The entries after some snapshots were published, one after the other. -/
def CacheStore.publishAll (store : CacheStore) (news : List (Nat × Snapshot)) : CacheStore :=
  news.foldl (fun store entry => store.publish entry.1 entry.2) store

namespace Chronicle

/-- The snapshots that were published to a cache, with their entries. -/
def published (cache : Handle) (chronicle : Chronicle) : List (Nat × Snapshot) :=
  chronicle.filterMap (·.2.published? cache)

/-- The entries of a cache as they are after all that has happened. -/
def store (cache : Handle) (blocks : List CacheBlock) (chronicle : Chronicle) : CacheStore :=
  CacheStore.publishAll (.ofBlocks blocks) (chronicle.published cache)

end Chronicle

/-! ### Entries and what is published to them -/

namespace CacheStore

variable {store : CacheStore} {news : List (Nat × Snapshot)} {index : Nat} {entry : CacheEntry}

theorem getElem?_publish (store : CacheStore) (index : Nat) (snapshot : Snapshot) (i : Nat) :
    (store.publish index snapshot)[i]? =
      store[i]?.map fun entry => if index = i then { entry with snapshot := some snapshot }
        else entry := by
  rw [publish, List.getElem?_modify]
  by_cases h : index = i <;> simp [h]

@[simp] theorem length_publishAll : (store.publishAll news).length = store.length := by
  induction news generalizing store with
  | nil => rfl
  | cons new news ih =>
    show ((store.publish new.1 new.2).publishAll news).length = _
    rw [ih, publish, List.length_modify]

/-- An entry keeps its block, and its snapshot unless another one was published to it. -/
theorem exists_of_publishAll (h : (store.publishAll news)[index]? = some entry) :
    ∃ before, store[index]? = some before ∧ entry.block = before.block ∧
      (entry.snapshot = before.snapshot ∨
        ∃ snapshot, (index, snapshot) ∈ news ∧ entry.snapshot = some snapshot) := by
  induction news generalizing store with
  | nil => exact ⟨entry, h, rfl, .inl rfl⟩
  | cons new news ih =>
    obtain ⟨middle, hmiddle, hblock, hsnapshot⟩ := ih h
    rw [getElem?_publish] at hmiddle
    obtain ⟨before, hbefore, rfl⟩ := Option.map_eq_some_iff.mp hmiddle
    refine ⟨before, hbefore, ?_, ?_⟩
    · rw [hblock]
      split <;> rfl
    · rcases hsnapshot with hkept | ⟨snapshot, hmem, heq⟩
      · by_cases hnew : new.1 = index
        · -- nothing newer came behind the first one
          right
          refine ⟨new.2, ?_, by simpa [hnew] using hkept⟩
          rw [← hnew]
          exact List.mem_cons_self
        · left
          simpa [hnew] using hkept
      · exact .inr ⟨snapshot, List.mem_cons_of_mem _ hmem, heq⟩

theorem snapshot_ofBlocks {blocks : List CacheBlock} (h : (ofBlocks blocks)[index]? = some entry) :
    entry.snapshot = none := by
  rw [ofBlocks, List.getElem?_map] at h
  obtain ⟨block, -, rfl⟩ := Option.map_eq_some_iff.mp h
  rfl

end CacheStore

namespace Chronicle

variable {chronicle later : Chronicle} {cache : Handle} {blocks : List CacheBlock} {index : Nat}
  {entry : CacheEntry} {snapshot : Snapshot}

@[simp] theorem published_append :
    published cache (chronicle ++ later) = published cache chronicle ++ published cache later :=
  List.filterMap_append

theorem published_singleton {new : Instant × Happening} :
    published cache [new] = (new.2.published? cache).toList := by
  cases h : new.2.published? cache <;> simp [published, h]

theorem store_append : store cache blocks (chronicle ++ later) =
    (store cache blocks chronicle).publishAll (published cache later) := by
  rw [store, published_append, CacheStore.publishAll, List.foldl_append]
  rfl

theorem store_snoc_of_none {new : Instant × Happening} (h : new.2.published? cache = none) :
    store cache blocks (chronicle ++ [new]) = store cache blocks chronicle := by
  rw [store_append, published_singleton, h]
  rfl

theorem store_snoc_of_some {new : Instant × Happening}
    (h : new.2.published? cache = some (index, snapshot)) :
    store cache blocks (chronicle ++ [new]) =
      (store cache blocks chronicle).publish index snapshot := by
  rw [store_append, published_singleton, h]
  rfl

@[simp] theorem length_store : (store cache blocks chronicle).length = blocks.length := by
  simp [store, CacheStore.ofBlocks]

/-- What an entry holds was published to it. -/
theorem mem_published (h : (store cache blocks chronicle)[index]? = some entry)
    (hsnapshot : entry.snapshot = some snapshot) :
    (index, snapshot) ∈ published cache chronicle := by
  obtain ⟨before, hbefore, -, hkept | ⟨newer, hmem, hnewer⟩⟩ := CacheStore.exists_of_publishAll h
  · -- before anything was published there was no snapshot
    rw [CacheStore.snapshot_ofBlocks hbefore, hsnapshot] at hkept
    cases hkept
  · rw [hsnapshot] at hnewer
    cases hnewer
    exact hmem

end Chronicle

/-! ### Stamps -/

namespace Action

variable {α β : Type} {cache : Handle} {stamp : Option Instant}

/-- The instant that the clock has shown. -/
def Step.shown? : Step → Option Instant
  | ⟨.now, instant⟩ => some instant
  | _ => none

/-- A snapshot is published right after the clock was looked at, as of the instant it showed. -/
def Stamps (cache : Handle) : Option Instant → Action α → Prop
  | _, done _ => True
  | stamp, ask call next =>
      (∀ index snapshot, call = .publish cache index snapshot → stamp = some snapshot.taken) ∧
        ∀ answer, (next answer).Stamps cache (Step.shown? ⟨call, answer⟩)

theorem stamps_bind {action : Action α} {next : α → Action β} {post : α → Prop}
    (h : action.Does (fun call => ¬ call.Publishes cache) post)
    (hnext : ∀ result stamp, (next result).Stamps cache stamp) :
    (action >>= next).Stamps cache stamp := by
  induction action generalizing stamp with
  | done result => exact hnext result stamp
  | ask call rest ih =>
    constructor
    · intro index snapshot hcall
      have hpublishes : ¬ call.Publishes cache := h.1
      rw [hcall] at hpublishes
      exact absurd rfl hpublishes
    · exact fun answer => ih answer (h.2 answer)

theorem stamps_of_does {action : Action α} {post : α → Prop}
    (h : action.Does (fun call => ¬ call.Publishes cache) post) : action.Stamps cache stamp := by
  have hbind : (action >>= pure).Stamps cache stamp := stamps_bind h fun _ _ => trivial
  rw [bind_pure] at hbind
  exact hbind

end Action

/-! ### The task -/

/-- The entries of a cache are looked at. -/
def Call.Views : Call → Prop
  | .entries _ => True
  | _ => False

theorem Call.OfExchange.not_views {call : Call} (h : call.OfExchange) : ¬ call.Views := by
  cases call <;> first | exact h.elim | exact id

namespace PollTask

variable {task : PollTask} {phase : PollPhase} {stamp : Option Instant}

theorem sweepFrom_stamps {α : Type} {index : Nat} {blocks : List CacheBlock}
    {next : Unit → Action α} (hnext : ∀ result stamp, (next result).Stamps task.cache stamp) :
    (task.sweepFrom index blocks >>= next).Stamps task.cache stamp := by
  induction blocks generalizing index stamp with
  | nil => exact hnext () stamp
  | cons block blocks ih =>
    rw [sweepFrom, bind_assoc]
    apply Action.stamps_bind (Engine.submit_does.mono_calls fun _ h => h.not_publishes)
    intro result stamp
    cases result with
    | ok cells =>
      constructor
      · intro _ _ hcall
        cases hcall
      · -- the clock is looked at, and what it shows goes with the cells
        refine fun instant => ⟨?_, fun _ => ih⟩
        intro _ snapshot hcall
        cases hcall
        rfl
    | error error =>
      refine ⟨?_, fun _ => ih⟩
      intro _ _ hcall
      cases hcall

theorem step_stamps : (task.step phase).Stamps task.cache stamp := by
  by_cases hphase : phase = .sweeping
  · subst hphase
    exact sweepFrom_stamps fun _ _ => ⟨nofun, fun _ => trivial⟩
  · exact Action.stamps_of_does (step_does hphase)

theorem sweepFrom_views (task : PollTask) (index : Nat) (blocks : List CacheBlock) :
    (task.sweepFrom index blocks).Does (fun call => ¬ call.Views) fun _ => True := by
  induction blocks generalizing index with
  | nil => exact trivial
  | cons block blocks ih =>
    apply (Engine.submit_does.mono_calls fun _ => Call.OfExchange.not_views).bind
    intro result _
    cases result with
    | ok cells => exact ⟨id, fun _ => ⟨id, fun _ => ih (index + 1)⟩⟩
    | error error => exact ⟨id, fun _ => ih (index + 1)⟩

theorem obey_views {running : Option PollPhase} {signal : Signal} :
    (obey running signal).Does (fun call => ¬ call.Views) fun _ => True := by
  rcases signal with (_ | _ | _) | _ | _
  case command.resume => cases running <;> first | exact trivial | exact ⟨id, fun _ => trivial⟩
  all_goals first | exact trivial | exact ⟨id, fun _ => trivial⟩

/-- The task never looks at the entries; it only writes them. -/
theorem step_views : (task.step phase).Does (fun call => ¬ call.Views) fun _ => True := by
  cases phase with
  | sweeping => exact (task.sweepFrom_views 0 task.blocks).bind fun _ _ => ⟨id, fun _ => trivial⟩
  | waiting deadline => exact Action.does_perform_bind.mpr ⟨id, fun _ => obey_views⟩
  | paused => exact Action.does_perform_bind.mpr ⟨id, fun _ => obey_views⟩
  | stopped => exact trivial

variable {manager : CacheManager} {chronicle chronicle' : Chronicle} {life life' after : Life}
  {happening : Happening}

theorem sweepRest_cons (task : PollTask) (index : Nat) (block : CacheBlock)
    (blocks : List CacheBlock) : task.sweepRest index (block :: blocks) =
      task.poll index block >>= fun _ => task.sweepRest (index + 1) blocks := by
  rw [sweepRest, sweepFrom_cons, bind_assoc]
  rfl

theorem poll_does (task : PollTask) (index : Nat) (block : CacheBlock) :
    (task.poll index block).Does (fun call => ¬ call.Awaits) fun _ => True := by
  apply (Engine.submit_does.mono_calls fun _ => Call.OfExchange.not_awaits).bind
  intro result _
  cases result with
  | ok cells => exact ⟨id, fun _ => ⟨id, fun _ => trivial⟩⟩
  | error error => exact ⟨id, fun _ => trivial⟩

/-- The clock is all that the answers to a task hang on that does not wait. -/
theorem answers_of_not_awaits {step : Action.Step} (hcall : ¬ step.call.Awaits)
    (hclock : ∀ instant ∈ step.shown?, instant = life.clock) :
    life.Answers life.queue step := by
  rcases step with ⟨call, answer⟩
  cases call with
  | await => exact absurd trivial hcall
  | now => exact ⟨hclock answer rfl, rfl⟩
  | _ => exact rfl

/-- The task polls the next block of its sweep at one instant. -/
theorem Leads.polls {index : Nat} {block : CacheBlock} {blocks : List CacheBlock}
    {history : List Action.Step} {poll : Poll} {clock : Instant} {queue : List Command}
    {isOpen : Bool} (h : task.Leads manager chronicle life chronicle'
      ⟨clock, queue, isOpen, some (task.sweepRest index (block :: blocks))⟩)
    (hpoll : (task.poll index block).Runs history poll)
    (hclock : ∀ step ∈ history, ∀ instant ∈ step.shown?, instant = clock) :
    task.Leads manager chronicle life (chronicle' ++ history.map fun step => (clock, .own step))
      ⟨clock, queue, isOpen, some (task.sweepRest (index + 1) blocks)⟩ := by
  rw [sweepRest_cons] at h
  apply h.calls hpoll
  intro step hstep rest
  have hcall := ((task.poll_does index block).of_runs hpoll).1 step hstep
  exact answers_of_not_awaits hcall (hclock step hstep)

theorem Lives.polls {index : Nat} {block : CacheBlock} {blocks : List CacheBlock}
    {history : List Action.Step} {poll : Poll} {clock : Instant} {queue : List Command}
    {isOpen : Bool} (h : task.Lives manager chronicle
      ⟨clock, queue, isOpen, some (task.sweepRest index (block :: blocks))⟩)
    (hpoll : (task.poll index block).Runs history poll)
    (hclock : ∀ step ∈ history, ∀ instant ∈ step.shown?, instant = clock) :
    task.Lives manager (chronicle ++ history.map fun step => (clock, .own step))
      ⟨clock, queue, isOpen, some (task.sweepRest (index + 1) blocks)⟩ :=
  (Leads.polls .refl hpoll hclock).lives h

theorem Moves.clock_eq (h : task.Moves manager life happening after) :
    after.clock = life.clock := by
  cases h <;> rfl

/-- Nothing but a call of the task publishes anything. -/
theorem Moves.published (h : task.Moves manager life happening after) {index : Nat}
    {snapshot : Snapshot} (hpublished : happening.published? task.cache = some (index, snapshot)) :
    ∃ next, life.rest = some (.ask (.publish task.cache index snapshot) next) := by
  cases h with
  | own hrest hanswer =>
    rename Call => call
    cases call with
    | publish handle i shot =>
      rw [Happening.published?] at hpublished
      split at hpublished
      next hcache =>
        cases hpublished
        subst hcache
        exact ⟨_, hrest⟩
      next => cases hpublished
    | _ => cases hpublished
  | _ => cases hpublished

/-! ### What the task has published -/

/-- What has been published was taken by now, and by the instant that the task is about to stamp a
snapshot with; that instant does not lie before the phase was entered. -/
structure Dated (task : PollTask) (chronicle : Chronicle) (life : Life) (stamp : Option Instant) :
    Prop where
  stamps : ∀ rest, life.rest = some rest → rest.Stamps task.cache stamp
  stamp_le : ∀ instant, stamp = some instant → instant ≤ life.clock
  taken_le : ∀ entry ∈ chronicle.published task.cache, entry.2.taken ≤ stamp.getD life.clock
  entered_le : ∀ time phase, (time, .entered phase) ∈ chronicle → time ≤ stamp.getD life.clock

namespace Dated

theorem wait {clock : Instant} (h : task.Dated chronicle life stamp) (hclock : life.clock ≤ clock) :
    task.Dated chronicle { life with clock } stamp where
  stamps := h.stamps
  stamp_le instant hstamp := Nat.le_trans (h.stamp_le instant hstamp) hclock
  taken_le entry hentry := by
    have := h.taken_le entry hentry
    cases stamp with
    | none => exact Nat.le_trans this hclock
    | some instant => exact this
  entered_le time phase hentered := by
    have := h.entered_le time phase hentered
    cases stamp with
    | none => exact Nat.le_trans this hclock
    | some instant => exact this

theorem getD_le (h : task.Dated chronicle life stamp) : stamp.getD life.clock ≤ life.clock := by
  cases stamp with
  | none => exact Nat.le_refl _
  | some instant => exact h.stamp_le instant rfl

/-- A happening that is not a look at the clock takes the stamp away. -/
theorem unstamped (h : task.Dated chronicle life stamp) (hclock : after.clock = life.clock)
    (hnew : ∀ index snapshot, happening.published? task.cache = some (index, snapshot) →
      stamp = some snapshot.taken)
    (hstamps : ∀ rest, after.rest = some rest → rest.Stamps task.cache none) :
    task.Dated (chronicle ++ [(life.clock, happening)]) after none where
  stamps := hstamps
  stamp_le _ hstamp := nomatch hstamp
  taken_le := by
    intro entry hentry
    show entry.2.taken ≤ after.clock
    rw [hclock]
    rw [Chronicle.published_append, Chronicle.published_singleton, List.mem_append] at hentry
    cases hentry with
    | inl hearlier => exact Nat.le_trans (h.taken_le entry hearlier) h.getD_le
    | inr hlast => exact h.stamp_le _ (hnew _ _ (Option.mem_toList.mp hlast))
  entered_le := by
    intro time phase hentered
    show time ≤ after.clock
    rw [hclock]
    cases List.mem_append.mp hentered with
    | inl hearlier => exact Nat.le_trans (h.entered_le time phase hearlier) h.getD_le
    | inr hlast =>
      cases List.mem_singleton.mp hlast
      exact Nat.le_refl _

/-- A look at the clock sets the stamp to what it shows. -/
theorem stamped (h : task.Dated chronicle life stamp) (hclock : after.clock = life.clock)
    (hstamps : ∀ rest, after.rest = some rest → rest.Stamps task.cache (some life.clock)) :
    task.Dated (chronicle ++ [(life.clock, .own ⟨.now, life.clock⟩)]) after (some life.clock) where
  stamps := hstamps
  stamp_le := by
    intro instant hinstant
    cases hinstant
    exact Nat.le_of_eq hclock.symm
  taken_le := by
    intro entry hentry
    rw [Chronicle.published_append, List.mem_append] at hentry
    cases hentry with
    | inl hearlier => exact Nat.le_trans (h.taken_le entry hearlier) h.getD_le
    | inr hlast => cases hlast
  entered_le := by
    intro time phase hentered
    cases List.mem_append.mp hentered with
    | inl hearlier => exact Nat.le_trans (h.entered_le time phase hearlier) h.getD_le
    | inr hlast => cases List.mem_singleton.mp hlast

/-- What others do leaves the stamp as it is. -/
theorem others (h : task.Dated chronicle life stamp) (hclock : after.clock = life.clock)
    (hrest : after.rest = life.rest) (hnone : happening.published? task.cache = none)
    (hentered : ∀ phase, happening ≠ .entered phase) :
    task.Dated (chronicle ++ [(life.clock, happening)]) after stamp where
  stamps := by rw [hrest]; exact h.stamps
  stamp_le := by rw [hclock]; exact h.stamp_le
  taken_le := by
    rw [Chronicle.published_append, Chronicle.published_singleton, hnone, hclock]
    simpa using h.taken_le
  entered_le := by
    intro time phase hmem
    rw [hclock]
    cases List.mem_append.mp hmem with
    | inl hearlier => exact h.entered_le time phase hearlier
    | inr hlast =>
      cases List.mem_singleton.mp hlast
      exact absurd rfl (hentered phase)

end Dated

theorem Lives.dated (h : task.Lives manager chronicle life) :
    ∃ stamp, task.Dated chronicle life stamp := by
  induction h with
  | start clock =>
    have hstamps : task.start.Stamps task.cache none := ⟨nofun, fun _ => trivial⟩
    refine ⟨none, ?_, nofun, nofun, nofun⟩
    intro rest hrest
    cases hrest
    exact hstamps
  | wait h hclock ih =>
    obtain ⟨stamp, ih⟩ := ih
    exact ⟨stamp, ih.wait hclock⟩
  | @move chronicle life after happening h hmove ih =>
    obtain ⟨stamp, ih⟩ := ih
    cases hmove with
    | @own call next answer queue hrest hanswer =>
      obtain ⟨hpublish, hnext⟩ := ih.stamps _ hrest
      by_cases hnow : call = .now
      · subst hnow
        obtain ⟨rfl, -⟩ := hanswer
        refine ⟨some life.clock, ih.stamped rfl ?_⟩
        intro rest hleft
        cases hleft
        exact hnext life.clock
      · refine ⟨none, ih.unstamped rfl ?_ ?_⟩
        · intro index snapshot hpublished
          have hmove : task.Moves manager life (.own ⟨call, answer⟩) _ := .own hrest hanswer
          obtain ⟨_, hleft⟩ := hmove.published hpublished
          cases hrest.symm.trans hleft
          exact hpublish index snapshot rfl
        · intro rest hleft
          cases hleft
          have hshown : Action.Step.shown? ⟨call, answer⟩ = none := by
            cases call <;> first | exact absurd rfl hnow | rfl
          rw [← hshown]
          exact hnext answer
    | enter hrest hphase =>
      refine ⟨none, ih.unstamped rfl nofun ?_⟩
      intro rest hnew
      cases hnew
      exact step_stamps
    | finish hrest => exact ⟨none, ih.unstamped rfl nofun nofun⟩
    | accept | refuse | drop => exact ⟨stamp, ih.others rfl rfl rfl nofun⟩

/-- When the task publishes a snapshot, all others were taken before it, in phases that were
entered before. -/
theorem Lives.stamped (h : task.Lives manager chronicle life) {index : Nat} {snapshot : Snapshot}
    (hmove : task.Moves manager life happening after)
    (hpublished : happening.published? task.cache = some (index, snapshot)) :
    (∀ entry ∈ chronicle.published task.cache, entry.2.taken ≤ snapshot.taken) ∧
      ∀ time phase, (time, .entered phase) ∈ chronicle → time ≤ snapshot.taken := by
  obtain ⟨stamp, hdated⟩ := h.dated
  obtain ⟨next, hrest⟩ := hmove.published hpublished
  have hstamp : stamp = some snapshot.taken := (hdated.stamps _ hrest).1 index snapshot rfl
  subst hstamp
  exact ⟨hdated.taken_le, hdated.entered_le⟩

/-- Later snapshots were taken later. -/
theorem Leads.published_le (hleads : task.Leads manager chronicle life chronicle' life')
    (h : task.Lives manager chronicle life) :
    ∃ later, chronicle' = chronicle ++ later ∧ life.clock ≤ life'.clock ∧
      ∀ older ∈ chronicle.published task.cache, ∀ newer ∈ Chronicle.published task.cache later,
        older.2.taken ≤ newer.2.taken := by
  induction hleads with
  | refl => exact ⟨[], (List.append_nil _).symm, Nat.le_refl _, fun _ _ => nofun⟩
  | wait _ hclock ih =>
    obtain ⟨later, heq, hle, hordered⟩ := ih
    exact ⟨later, heq, Nat.le_trans hle hclock, hordered⟩
  | @move chronicle' life' after happening hleads hmove ih =>
    obtain ⟨later, rfl, hle, hordered⟩ := ih
    refine ⟨later ++ [(life'.clock, happening)], by simp, hmove.clock_eq ▸ hle, ?_⟩
    intro older holder newer hnewer
    rw [Chronicle.published_append, Chronicle.published_singleton, List.mem_append] at hnewer
    cases hnewer with
    | inl hearlier => exact hordered older holder newer hearlier
    | inr hlast =>
      refine ((hleads.lives h).stamped hmove (Option.mem_toList.mp hlast)).1 older ?_
      rw [Chronicle.published_append]
      exact List.mem_append_left _ holder

/-! ### The entries in a session -/

/-- What the task reads of the entries it knows from the chronicle. -/
theorem Lives.views (h : task.Lives manager chronicle life) {rest : Action PollPhase}
    (hrest : life.rest = some rest) : rest.Does (fun call => ¬ call.Views) fun _ => True := by
  induction h generalizing rest with
  | start clock =>
    cases hrest
    exact ⟨id, fun _ => trivial⟩
  | wait h hclock ih => exact ih hrest
  | move h hmove ih =>
    cases hmove with
    | own hbefore hanswer =>
      cases hrest
      exact (ih hbefore).2 _
    | enter hbefore hphase =>
      cases hrest
      exact step_views
    | finish => cases hrest
    | accept | refuse | drop => exact ih hrest

/-- The clock and the entries as they are now. -/
def worldAt (task : PollTask) (chronicle : Chronicle) (life : Life) : CacheWorld :=
  ⟨life.clock, chronicle.store task.cache task.blocks⟩

/-- A call of the task is answered as in a session. -/
theorem tended_own {call : Call} {answer : call.Answer} {queue : List Command}
    (hanswer : life.Answers queue ⟨call, answer⟩) (hviews : ¬ call.Views)
    (hclock : after.clock = life.clock) :
    tended task.cache (task.worldAt chronicle life) ⟨call, answer⟩
      (task.worldAt (chronicle ++ [(life.clock, .own ⟨call, answer⟩)]) after) := by
  refine ⟨Nat.le_of_eq hclock.symm, ?_⟩
  cases call with
  | now => exact ⟨hanswer.1.trans hclock.symm, Chronicle.store_snoc_of_none rfl⟩
  | entries => exact absurd trivial hviews
  | publish handle index snapshot =>
    show Chronicle.store _ _ _ = if handle = task.cache then _ else _
    by_cases hcache : handle = task.cache
    · rw [if_pos hcache]
      exact Chronicle.store_snoc_of_some (by rw [Happening.published?, if_pos hcache])
    · rw [if_neg hcache]
      exact Chronicle.store_snoc_of_none (by rw [Happening.published?, if_neg hcache])
  | _ => exact Chronicle.store_snoc_of_none rfl

theorem Lives.works (h : task.Lives manager chronicle life) :
    (∀ rest, life.rest = some rest → task.Works rest (task.worldAt chronicle life)) ∧
      ∃ progress, task.Session progress (task.worldAt chronicle life) := by
  induction h with
  | start clock =>
    refine ⟨?_, {}, .start clock⟩
    intro rest hrest
    cases hrest
    exact .start clock
  | @wait chronicle life clock h hclock ih =>
    -- that time passes is one of the things others can do
    have hpass : tended task.cache (task.worldAt chronicle life) ⟨.sleep 0, ()⟩
        (task.worldAt chronicle { life with clock }) := ⟨hclock, rfl⟩
    obtain ⟨hworks, progress, hsession⟩ := ih
    exact ⟨fun rest hrest => (hworks rest hrest).other id hpass, progress, hsession.other id hpass⟩
  | @move chronicle life after happening h hmove ih =>
    obtain ⟨hworks, progress, hsession⟩ := ih
    have hsame : happening.published? task.cache = none → after.clock = life.clock →
        task.worldAt (chronicle ++ [(life.clock, happening)]) after =
          task.worldAt chronicle life := by
      intro hnone hclock
      rw [worldAt, worldAt, Chronicle.store_snoc_of_none hnone, hclock]
    have hof : ∀ {rest world}, task.Works rest world → ∃ progress, task.Session progress world := by
      intro rest world hrest
      obtain ⟨progress, hsession, -⟩ := hrest.session
      exact ⟨progress, hsession⟩
    cases hmove with
    | own hrest hanswer =>
      have hnext := (hworks _ hrest).own (tended_own hanswer (h.views hrest).1 rfl)
      refine ⟨?_, hof hnext⟩
      intro rest hleft
      cases hleft
      exact hnext
    | enter hrest hphase =>
      rw [hsame rfl rfl]
      have hnext := (hworks _ hrest).turn
      refine ⟨?_, hof hnext⟩
      intro rest hleft
      cases hleft
      exact hnext
    | finish hrest =>
      rw [hsame rfl rfl]
      exact ⟨nofun, progress, hsession⟩
    | accept | refuse | drop =>
      rw [hsame rfl rfl]
      exact ⟨hworks, progress, hsession⟩

end PollTask

end ModbusMaster
