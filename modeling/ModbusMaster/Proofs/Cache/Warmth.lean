import ModbusMaster.Proofs.Cache.Succession

/-!
A cache that is kept warm. While every poll succeeds, no sweep takes longer than the interval and
the timers are exact, no snapshot gets older than three intervals: in a sweep none is older than
two intervals and the time since the sweep was begun, and in a wait none is older than one
interval and the time since the last sweep has ended. `PollTask.Warm` says so for each place where
the task can be.
-/

namespace ModbusMaster

/-- A poll has failed. -/
def Happening.Fails : Happening → Prop
  | own ⟨.report (.pollFailed _ _), _⟩ => True
  | _ => False

theorem Happening.published?_eq_none {cache : Handle} {call : Call} {answer : call.Answer}
    (h : ¬ call.Publishes cache) : (own ⟨call, answer⟩).published? cache = none := by
  cases call with
  | publish => exact if_neg h
  | _ => rfl

/-- The instant by which the task has to go on to the next phase, after one thing more: a sweep
lasts no longer than the interval, and a wait no longer than to its deadline. -/
def Happening.due? (interval : Duration) (time : Instant) (due : Option Instant) :
    Happening → Option Instant
  | entered .sweeping => some (time + interval)
  | entered (.waiting deadline) => some deadline
  | entered _ => none
  | _ => due

namespace Chronicle

/-- As `Happening.due?`, after all that has happened. -/
def due? (interval : Duration) (due : Option Instant) (chronicle : Chronicle) : Option Instant :=
  chronicle.foldl (fun due entry => entry.2.due? interval entry.1 due) due

/-- Nothing has come later than it was due, and nothing is overdue now. -/
def Timely (interval : Duration) (clock : Instant) (due : Option Instant) : Chronicle → Prop
  | [] => ∀ deadline ∈ due, clock ≤ deadline
  | (time, happening) :: rest => (∀ deadline ∈ due, time ≤ deadline) ∧
      Timely interval clock (happening.due? interval time due) rest

/-- No sweep is begun. -/
def Unswept (chronicle : Chronicle) : Prop :=
  ∀ entry ∈ chronicle, entry.2 ≠ .entered .sweeping

variable {chronicle : Chronicle} {interval : Duration} {clock later time : Instant}
  {due : Option Instant} {happening : Happening}

theorem due?_snoc : due? interval due (chronicle ++ [(time, happening)]) =
    happening.due? interval time (due? interval due chronicle) := by
  simp [due?]

theorem timely_snoc : Timely interval clock due (chronicle ++ [(time, happening)]) ↔
    Timely interval time due chronicle ∧
      ∀ deadline ∈ happening.due? interval time (due? interval due chronicle),
        clock ≤ deadline := by
  induction chronicle generalizing due with
  | nil => rfl
  | cons entry rest ih =>
    show (_ ∧ Timely _ _ _ (rest ++ _)) ↔ (_ ∧ Timely _ _ _ rest) ∧ _
    rw [ih, and_assoc]
    rfl

theorem due?_snoc_of_ne (h : ∀ phase, happening ≠ .entered phase) :
    due? interval due (chronicle ++ [(time, happening)]) = due? interval due chronicle := by
  rw [due?_snoc]
  cases happening with
  | entered phase => exact absurd rfl (h phase)
  | _ => rfl

theorem InOnePhase.snoc (h : InOnePhase chronicle) (hnew : ∀ phase, happening ≠ .entered phase) :
    InOnePhase (chronicle ++ [(time, happening)]) :=
  List.forall_mem_append.mpr ⟨h, List.forall_mem_singleton.mpr hnew⟩

theorem Unswept.snoc (h : Unswept chronicle) (hnew : happening ≠ .entered .sweeping) :
    Unswept (chronicle ++ [(time, happening)]) :=
  List.forall_mem_append.mpr ⟨h, List.forall_mem_singleton.mpr hnew⟩

theorem Timely.le (h : Timely interval clock due chronicle) :
    ∀ deadline ∈ due? interval due chronicle, clock ≤ deadline := by
  induction chronicle generalizing due with
  | nil => exact h
  | cons entry rest ih => exact ih h.2

theorem Timely.mono (h : Timely interval later due chronicle) (hle : clock ≤ later) :
    Timely interval clock due chronicle := by
  induction chronicle generalizing due with
  | nil => exact fun deadline hdue => Nat.le_trans hle (h deadline hdue)
  | cons entry rest ih => exact ⟨h.1, ih h.2⟩

theorem mem_calls {step : Action.Step} (h : step ∈ calls chronicle) :
    ∃ time, (time, .own step) ∈ chronicle := by
  obtain ⟨⟨time, happening⟩, hmem, hcall⟩ := List.mem_filterMap.mp h
  cases happening with
  | own own =>
    cases hcall
    exact ⟨time, hmem⟩
  | _ => cases hcall

end Chronicle

/-! ### Ages -/

theorem sub_le_of_le_add {clock ended interval : Nat} (h : clock ≤ ended + interval) :
    clock - 2 * interval ≤ ended - interval := by
  omega

theorem age_in_sweep {clock begun taken interval : Nat} (hclock : clock ≤ begun + interval)
    (htaken : begun - 2 * interval ≤ taken) : clock - taken ≤ 3 * interval := by
  omega

theorem age_in_wait {clock ended taken interval : Nat} (hclock : clock ≤ ended + interval)
    (htaken : ended - interval ≤ taken) : clock - taken ≤ 3 * interval := by
  omega

/-! ### Snapshots since an instant -/

namespace CacheStore

/-- No snapshot was taken before an instant. -/
def TakenSince (store : CacheStore) (instant : Instant) : Prop :=
  ∀ (index : Nat) (entry : CacheEntry) (snapshot : Snapshot), store[index]? = some entry →
    entry.snapshot = some snapshot → instant ≤ snapshot.taken

variable {store : CacheStore} {instant earlier : Instant} {index : Nat} {block : CacheBlock}
  {snapshot : Snapshot} {news : List (Nat × Snapshot)} {entry : CacheEntry}

theorem TakenSince.mono (h : store.TakenSince instant) (hle : earlier ≤ instant) :
    store.TakenSince earlier :=
  fun index entry snapshot hentry hsnapshot =>
    Nat.le_trans hle (h index entry snapshot hentry hsnapshot)

theorem TakenSince.publish (h : store.TakenSince instant) (hle : instant ≤ snapshot.taken) :
    (store.publish index snapshot).TakenSince instant := by
  intro i entry found hentry hfound
  rw [getElem?_publish] at hentry
  obtain ⟨before, hbefore, rfl⟩ := Option.map_eq_some_iff.mp hentry
  by_cases hindex : index = i
  · simp only [hindex, if_pos] at hfound
    cases hfound
    exact hle
  · simp only [hindex, if_false] at hfound
    exact h i before found hbefore hfound

/-- An entry holds the last of the snapshots that were published to it. -/
theorem exists_of_mem_news (h : (store.publishAll news)[index]? = some entry)
    (hnew : (index, snapshot) ∈ news) :
    ∃ last, (index, last) ∈ news ∧ entry.snapshot = some last := by
  induction news generalizing store with
  | nil => cases hnew
  | cons new news ih =>
    change ((store.publish new.1 new.2).publishAll news)[index]? = some entry at h
    cases List.mem_cons.mp hnew with
    | inl heq =>
      subst heq
      obtain ⟨middle, hmiddle, -, hkept | ⟨last, hlast, hnewer⟩⟩ := exists_of_publishAll h
      · -- nothing came after it
        rw [getElem?_publish] at hmiddle
        obtain ⟨before, -, rfl⟩ := Option.map_eq_some_iff.mp hmiddle
        exact ⟨snapshot, List.mem_cons_self, by simpa using hkept⟩
      · exact ⟨last, List.mem_cons_of_mem _ hlast, hnewer⟩
    | inr hlater =>
      obtain ⟨last, hlast, heq⟩ := ih h hlater
      exact ⟨last, List.mem_cons_of_mem _ hlast, heq⟩

/-- An entry that has a snapshot keeps its block and has a snapshot ever after. -/
theorem exists_publishAll (h : store[index]? = some ⟨block, some snapshot⟩) :
    ∃ last, (store.publishAll news)[index]? = some ⟨block, some last⟩ := by
  induction news generalizing store snapshot with
  | nil => exact ⟨snapshot, h⟩
  | cons new news ih =>
    have hpublish : ∃ last, (store.publish new.1 new.2)[index]? = some ⟨block, some last⟩ := by
      rw [getElem?_publish, h]
      by_cases hindex : new.1 = index
      · exact ⟨new.2, by simp [hindex]⟩
      · exact ⟨snapshot, by simp [hindex]⟩
    obtain ⟨last, hlast⟩ := hpublish
    exact ih hlast

end CacheStore

namespace PollTask

variable {task : PollTask} {manager : CacheManager} {chronicle : Chronicle} {life after : Life}
  {happening : Happening}

/-! ### Polls that succeed -/

/-- A poll that does not report a failure publishes what it has read. -/
theorem publishes_of_polled {block : CacheBlock × Nat} {history : List Action.Step}
    (h : task.Polled block history) (hsucceeds : ∀ step ∈ history, ¬ (Happening.own step).Fails) :
    ∃ snapshot, ⟨.publish task.cache block.2 snapshot, ()⟩ ∈ history := by
  obtain ⟨poll, hpoll⟩ := h
  obtain ⟨first, second, result, rfl, -, hrest⟩ := Action.runs_bind_iff.mp hpoll
  cases result with
  | ok cells =>
    obtain ⟨now, rest, rfl, hpublish⟩ := Action.runs_perform_bind_iff.mp hrest
    obtain ⟨⟨⟩, rest, rfl, -⟩ := Action.runs_perform_bind_iff.mp hpublish
    exact ⟨⟨cells, now⟩, by simp⟩
  | error error =>
    obtain ⟨⟨⟩, rest, rfl, -⟩ := Action.runs_perform_bind_iff.mp hrest
    exact absurd trivial (hsucceeds ⟨.report (.pollFailed block.1 error), ()⟩ (by simp))

theorem exists_polled {blocks : List (CacheBlock × Nat)} {histories : List (List Action.Step)}
    {block : CacheBlock × Nat} (h : List.Forall₂ task.Polled blocks histories)
    (hblock : block ∈ blocks) : ∃ history ∈ histories, task.Polled block history := by
  induction h with
  | nil => cases hblock
  | cons hpolled rest ih =>
    cases hblock with
    | head => exact ⟨_, List.mem_cons_self, hpolled⟩
    | tail _ hlater =>
      obtain ⟨history, hhistory, hpolled⟩ := ih hlater
      exact ⟨history, List.mem_cons_of_mem _ hhistory, hpolled⟩

/-- The calls of a whole sweep, which has ended at an instant. -/
def Swept (task : PollTask) (sweep : Chronicle) (ended : Instant) : Prop :=
  ∃ histories : List (List Action.Step), sweep.calls = histories.flatten ++ [⟨.now, ended⟩] ∧
    List.Forall₂ task.Polled task.blocks.zipIdx histories

/-- A sweep in which no poll has failed has published a snapshot of every block. -/
theorem Swept.published {sweep : Chronicle} {ended : Instant} (h : task.Swept sweep ended)
    (hsucceeds : ∀ entry ∈ sweep, ¬ entry.2.Fails) {index : Nat} {block : CacheBlock}
    (hblock : task.blocks[index]? = some block) :
    ∃ snapshot, (index, snapshot) ∈ sweep.published task.cache := by
  obtain ⟨histories, hcalls, hpolled⟩ := h
  have hplace : (block, index) ∈ task.blocks.zipIdx := List.mem_zipIdx_iff_getElem?.mpr hblock
  obtain ⟨history, hhistory, hpoll⟩ := exists_polled hpolled hplace
  have hmem : ∀ step ∈ history, ∃ time, (time, .own step) ∈ sweep := by
    intro step hstep
    apply Chronicle.mem_calls
    rw [hcalls]
    exact List.mem_append_left _ (List.mem_flatten.mpr ⟨history, hhistory, hstep⟩)
  have hpolls : ∀ step ∈ history, ¬ (Happening.own step).Fails := by
    intro step hstep
    obtain ⟨time, hentry⟩ := hmem step hstep
    exact hsucceeds _ hentry
  obtain ⟨snapshot, hpublish⟩ := publishes_of_polled hpoll hpolls
  obtain ⟨time, hentry⟩ := hmem _ hpublish
  exact ⟨snapshot, List.mem_filterMap.mpr ⟨_, hentry, if_pos rfl⟩⟩

/-- What the clock has shown was the time then. -/
theorem Lives.now_le (h : task.Lives manager chronicle life) {time instant : Instant}
    (hnow : (time, .own ⟨.now, instant⟩) ∈ chronicle) : instant ≤ life.clock := by
  induction h with
  | start clock => cases hnow
  | wait h hclock ih => exact Nat.le_trans (ih hnow) hclock
  | move h hmove ih =>
    rw [hmove.clock_eq]
    cases List.mem_append.mp hnow with
    | inl hearlier => exact ih hearlier
    | inr hlast =>
      cases List.mem_singleton.mp hlast
      cases hmove with
      | own hrest hanswer => exact Nat.le_of_eq hanswer.1

theorem Lives.ended_le (h : task.Lives manager chronicle life) {before sweep : Chronicle}
    {entry : Instant × Happening} {ended : Instant} (hsplit : chronicle = before ++ entry :: sweep)
    (hswept : task.Swept sweep ended) : ended ≤ life.clock := by
  obtain ⟨histories, hcalls, -⟩ := hswept
  have hlast : (⟨.now, ended⟩ : Action.Step) ∈ sweep.calls := by
    rw [hcalls]
    exact List.mem_append_right _ (List.mem_singleton_self _)
  obtain ⟨shown, hnow⟩ := Chronicle.mem_calls hlast
  have hmem : (shown, .own ⟨.now, ended⟩) ∈ chronicle := by
    rw [hsplit]
    exact List.mem_append_right _ (List.mem_cons_of_mem _ hnow)
  exact h.now_le hmem

/-- After a sweep in which no poll has failed there are no other snapshots than those taken in
it. -/
theorem Swept.takenSince {before sweep : Chronicle} {time ended instant : Instant}
    (h : task.Swept sweep ended) (hsucceeds : ∀ entry ∈ sweep, ¬ entry.2.Fails)
    (hsplit : chronicle = before ++ (time, .entered .sweeping) :: sweep)
    (hsince : ∀ entry ∈ sweep.published task.cache, instant ≤ entry.2.taken) :
    (chronicle.store task.cache task.blocks).TakenSince instant := by
  intro index entry snapshot hentry hsnapshot
  have hindex : index < task.blocks.length := by
    rw [← Chronicle.length_store]
    exact (List.getElem?_eq_some_iff.mp hentry).1
  obtain ⟨new, hnew⟩ := h.published hsucceeds (List.getElem?_eq_getElem hindex)
  rw [hsplit, List.append_cons, Chronicle.store_append] at hentry
  obtain ⟨last, hlast, heq⟩ := CacheStore.exists_of_mem_news hentry hnew
  rw [hsnapshot] at heq
  cases heq
  exact hsince _ hlast

/-! ### Healthy tasks -/

/-- Every poll has succeeded, nothing but resumptions was received, the sweeps and the waits have
come to their ends in time, and there is somebody to command the task. -/
structure Healthy (task : PollTask) (chronicle : Chronicle) (life : Life) : Prop where
  succeeds : ∀ entry ∈ chronicle, ¬ entry.2.Fails
  resumed : ∀ command ∈ chronicle.received, command = .resume
  timely : Chronicle.Timely task.interval life.clock none chronicle
  isOpen : life.isOpen = true

namespace Healthy

theorem wait {clock : Instant} (h : task.Healthy chronicle { life with clock })
    (hclock : life.clock ≤ clock) : task.Healthy chronicle life :=
  ⟨h.succeeds, h.resumed, h.timely.mono hclock, h.isOpen⟩

theorem move (h : task.Healthy (chronicle ++ [(life.clock, happening)]) after)
    (hmove : task.Moves manager life happening after) : task.Healthy chronicle life where
  succeeds entry hentry := h.succeeds entry (List.mem_append_left _ hentry)
  resumed command hcommand := by
    apply h.resumed
    rw [Chronicle.received_append]
    exact List.mem_append_left _ hcommand
  timely := (Chronicle.timely_snoc.mp h.timely).1
  isOpen := by
    have hopen := h.isOpen
    cases hmove with
    | drop => cases hopen
    | accept hopen' | refuse hopen' => exact hopen'
    | own | enter | finish => exact hopen

end Healthy

/-- A sweep that is begun at an instant is the first one, or the interval has passed since the
one before has ended. -/
def InRhythm (task : PollTask) (earlier : Chronicle) (time : Instant) : Prop :=
  earlier.InOnePhase ∨ ∃ (before : Chronicle) (start : Instant) (sweep rest : Chronicle)
      (ended : Instant),
    earlier = before ++ (start, .entered .sweeping) :: sweep ++ rest ∧ sweep.InOnePhase ∧
    rest.Unswept ∧ task.Swept sweep ended ∧ time = ended + task.interval

/-- Where a healthy task is, with what can be said of the entries there. -/
inductive Warm (task : PollTask) (chronicle : Chronicle) (life : Life) : Prop where
  | cold (phase : chronicle.InOnePhase) (nothing : chronicle.published task.cache = [])
      (rest : ∃ rest, life.rest = some rest ∧
        rest.Does (fun call => ¬ call.Publishes task.cache) (· = .sweeping))
  | sweeping {before sweep : Chronicle} {time : Instant}
      (split : chronicle = before ++ (time, .entered .sweeping) :: sweep)
      (phase : sweep.InOnePhase)
      (due : chronicle.due? task.interval none = some (time + task.interval))
      (since : ∀ entry ∈ sweep.published task.cache, time ≤ entry.2.taken)
      (store : (chronicle.store task.cache task.blocks).TakenSince (time - 2 * task.interval))
  | waiting {before sweep rest : Chronicle} {time ended : Instant}
      (split : chronicle = before ++ (time, .entered .sweeping) :: sweep ++ rest)
      (phase : sweep.InOnePhase) (unswept : rest.Unswept) (swept : task.Swept sweep ended)
      (due : chronicle.due? task.interval none = some (ended + task.interval))
      (store : (chronicle.store task.cache task.blocks).TakenSince (ended - task.interval))
      (waits : life.rest = some (.done (.waiting (ended + task.interval))) ∨
        life.rest = some (task.step (.waiting (ended + task.interval))) ∨
        life.rest = some (.done .sweeping) ∧ ended + task.interval ≤ life.clock)

namespace Warm

variable {before sweep : Chronicle} {time : Instant}

theorem wait {clock : Instant} (h : task.Warm chronicle life) (hclock : life.clock ≤ clock) :
    task.Warm chronicle { life with clock } := by
  cases h with
  | cold phase nothing rest => exact .cold phase nothing rest
  | sweeping split phase due since store => exact .sweeping split phase due since store
  | waiting split phase unswept swept due store waits =>
    refine .waiting split phase unswept swept due store ?_
    exact waits.imp_right (Or.imp_right fun h => ⟨h.1, Nat.le_trans h.2 hclock⟩)

/-- Whatever happens in a sweep, what is published was taken since the sweep was begun. -/
theorem sweeping_snoc (hsplit : chronicle = before ++ (time, .entered .sweeping) :: sweep)
    (hphase : sweep.InOnePhase)
    (hdue : chronicle.due? task.interval none = some (time + task.interval))
    (hsince : ∀ entry ∈ sweep.published task.cache, time ≤ entry.2.taken)
    (hstore : (chronicle.store task.cache task.blocks).TakenSince (time - 2 * task.interval))
    (hnot : ∀ phase, happening ≠ .entered phase) {clock : Instant}
    (hnew : ∀ index snapshot, happening.published? task.cache = some (index, snapshot) →
      time ≤ snapshot.taken) : task.Warm (chronicle ++ [(clock, happening)]) after := by
  have hsplit' : chronicle ++ [(clock, happening)] =
      before ++ (time, .entered .sweeping) :: (sweep ++ [(clock, happening)]) := by
    simp [hsplit]
  refine .sweeping hsplit' (hphase.snoc hnot) ?_ ?_ ?_
  · rw [Chronicle.due?_snoc_of_ne hnot]
    exact hdue
  · intro entry hentry
    rw [Chronicle.published_append, Chronicle.published_singleton, List.mem_append] at hentry
    cases hentry with
    | inl hearlier => exact hsince entry hearlier
    | inr hlast => exact hnew _ _ (Option.mem_toList.mp hlast)
  · cases hpublished : happening.published? task.cache with
    | none =>
      rw [Chronicle.store_snoc_of_none hpublished]
      exact hstore
    | some new =>
      rw [Chronicle.store_snoc_of_some hpublished]
      exact hstore.publish (Nat.le_trans (Nat.sub_le _ _) (hnew _ _ hpublished))

/-- Before the first sweep there is nothing in the entries. -/
theorem begins_cold (hnothing : chronicle.published task.cache = []) (clock : Instant) :
    task.Warm (chronicle ++ [(clock, .entered .sweeping)]) after := by
  refine .sweeping rfl (List.forall_mem_nil _) Chronicle.due?_snoc (List.forall_mem_nil _) ?_
  intro index entry snapshot hentry hsnapshot
  rw [Chronicle.store_snoc_of_none rfl] at hentry
  have hmem := Chronicle.mem_published hentry hsnapshot
  rw [hnothing] at hmem
  cases hmem

/-- A sweep that has ended leaves no snapshot that was not taken in it. -/
theorem ends_sweep (h : task.Lives manager chronicle life)
    (hhealthy : task.Healthy chronicle life)
    (hsplit : chronicle = before ++ (time, .entered .sweeping) :: sweep)
    (hphase : sweep.InOnePhase)
    (hdue : chronicle.due? task.interval none = some (time + task.interval))
    (hsince : ∀ entry ∈ sweep.published task.cache, time ≤ entry.2.taken) {phase : PollPhase}
    (hrest : life.rest = some (.done phase)) :
    task.Warm (chronicle ++ [(life.clock, .entered phase)])
      { life with rest := some (task.step phase) } := by
  obtain ⟨left, hleft, hleaves⟩ := h.sweep_left hsplit hphase
  rw [hrest] at hleft
  cases hleft
  obtain ⟨histories, ended, hcalls, hpolled, rfl⟩ := sweep_runs hleaves.runs
  have hswept : task.Swept sweep ended := ⟨histories, hcalls, hpolled⟩
  have hle : ended ≤ life.clock := h.ended_le hsplit hswept
  have hclock : life.clock ≤ time + task.interval := hhealthy.timely.le _ hdue
  have hbegun : ended - task.interval ≤ time :=
    Nat.sub_le_iff_le_add.mpr (Nat.le_trans hle hclock)
  have hsucceeds : ∀ entry ∈ sweep, ¬ entry.2.Fails := by
    intro entry hentry
    apply hhealthy.succeeds
    simp [hsplit, hentry]
  have hstore := hswept.takenSince hsucceeds hsplit hsince
  have hsplit' : chronicle ++ [(life.clock, .entered (.waiting (ended + task.interval)))] =
      before ++ (time, .entered .sweeping) :: sweep ++
        [(life.clock, .entered (.waiting (ended + task.interval)))] := by
    rw [hsplit]
  refine .waiting hsplit' hphase (List.forall_mem_singleton.mpr nofun) hswept
    Chronicle.due?_snoc ?_ (.inr (.inl rfl))
  rw [Chronicle.store_snoc_of_none rfl]
  exact hstore.mono hbegun

/-- What can happen before the first sweep. -/
theorem cold_move (hphase : chronicle.InOnePhase)
    (hnothing : chronicle.published task.cache = []) {rest : Action PollPhase}
    (hrest : life.rest = some rest)
    (hdoes : rest.Does (fun call => ¬ call.Publishes task.cache) (· = .sweeping))
    (hmove : task.Moves manager life happening after) :
    task.Warm (chronicle ++ [(life.clock, happening)]) after := by
  cases hmove with
  | @own call next answer queue hask hanswer =>
    cases hrest.symm.trans hask
    refine .cold (hphase.snoc (by nofun)) ?_ ⟨_, rfl, hdoes.2 answer⟩
    rw [Chronicle.published_append, hnothing, Chronicle.published_singleton,
      Happening.published?_eq_none hdoes.1]
    rfl
  | enter hdone =>
    cases hrest.symm.trans hdone
    cases hdoes
    exact begins_cold hnothing _
  | finish hdone =>
    cases hrest.symm.trans hdone
    cases hdoes
  | accept | refuse | drop =>
    refine .cold (hphase.snoc (by nofun)) ?_ ⟨rest, hrest, hdoes⟩
    rw [Chronicle.published_append, hnothing]
    rfl

/-- A wait goes on until its deadline has come, whatever is received meanwhile. -/
theorem waits_on {deadline : Instant} {call : Call} {next : call.Answer → Action PollPhase}
    {answer : call.Answer} {queue : List Command}
    (hhealthy : task.Healthy (chronicle ++ [(life.clock, .own ⟨call, answer⟩)]) after)
    (hopen : after.isOpen = life.isOpen)
    (hrest : task.step (.waiting deadline) = .ask call next)
    (hanswer : life.Answers queue ⟨call, answer⟩) :
    (Happening.own ⟨call, answer⟩).published? task.cache = none ∧
      (next answer = .done (.waiting deadline) ∨
        next answer = .done .sweeping ∧ deadline ≤ life.clock) := by
  cases hrest
  refine ⟨rfl, ?_⟩
  cases answer with
  | due =>
    obtain ⟨⟨instant, hinstant, hle⟩, -⟩ := hanswer
    cases hinstant
    exact .inr ⟨rfl, hle⟩
  | closed =>
    have hclosed := hopen.trans hanswer.2.1
    cases hhealthy.isOpen.symm.trans hclosed
  | command command =>
    have hresume : command = .resume := by
      apply hhealthy.resumed
      rw [Chronicle.received_append]
      exact List.mem_append_right _ (List.mem_singleton_self _)
    subst hresume
    exact .inl rfl

/-- What can happen between two sweeps. -/
theorem waiting_move {rest : Chronicle} {ended : Instant}
    (hhealthy : task.Healthy (chronicle ++ [(life.clock, happening)]) after)
    (hsplit : chronicle = before ++ (time, .entered .sweeping) :: sweep ++ rest)
    (hphase : sweep.InOnePhase) (hunswept : rest.Unswept) (hswept : task.Swept sweep ended)
    (hdue : chronicle.due? task.interval none = some (ended + task.interval))
    (hstore : (chronicle.store task.cache task.blocks).TakenSince (ended - task.interval))
    (hwaits : life.rest = some (.done (.waiting (ended + task.interval))) ∨
      life.rest = some (task.step (.waiting (ended + task.interval))) ∨
      life.rest = some (.done .sweeping) ∧ ended + task.interval ≤ life.clock)
    (hmove : task.Moves manager life happening after) :
    task.Warm (chronicle ++ [(life.clock, happening)]) after := by
  have hstays : happening.published? task.cache = none → happening ≠ .entered .sweeping →
      happening.due? task.interval life.clock (some (ended + task.interval)) =
        some (ended + task.interval) →
      (after.rest = some (.done (.waiting (ended + task.interval))) ∨
        after.rest = some (task.step (.waiting (ended + task.interval))) ∨
        after.rest = some (.done .sweeping) ∧ ended + task.interval ≤ after.clock) →
      task.Warm (chronicle ++ [(life.clock, happening)]) after := by
    intro hnone hnot hsame hrest
    have hsplit' : chronicle ++ [(life.clock, happening)] =
        before ++ (time, .entered .sweeping) :: sweep ++ (rest ++ [(life.clock, happening)]) := by
      simp [hsplit]
    refine .waiting hsplit' hphase (hunswept.snoc hnot) hswept ?_ ?_ hrest
    · rw [Chronicle.due?_snoc, hdue]
      exact hsame
    · rw [Chronicle.store_snoc_of_none hnone]
      exact hstore
  cases hmove with
  | own hrest hanswer =>
    rcases hwaits with hwaits | hwaits | ⟨hwaits, -⟩
    · cases hrest.symm.trans hwaits
    · have hstep := Option.some.inj (hwaits.symm.trans hrest)
      obtain ⟨hnone, hnext⟩ := waits_on hhealthy rfl hstep hanswer
      apply hstays hnone nofun rfl
      exact hnext.imp (congrArg some) fun hdue => .inr ⟨congrArg some hdue.1, hdue.2⟩
    · cases hrest.symm.trans hwaits
  | enter hrest =>
    rcases hwaits with hwaits | hwaits | ⟨hwaits, -⟩
    · cases hrest.symm.trans hwaits
      exact hstays rfl nofun rfl (.inr (.inl rfl))
    · cases hrest.symm.trans hwaits
    · cases hrest.symm.trans hwaits
      -- the deadline has come just now, so what was young enough then still is
      have hclock : life.clock ≤ ended + task.interval :=
        (Chronicle.timely_snoc.mp hhealthy.timely).1.le _ hdue
      refine .sweeping rfl (List.forall_mem_nil _) Chronicle.due?_snoc (List.forall_mem_nil _) ?_
      rw [Chronicle.store_snoc_of_none rfl]
      exact hstore.mono (sub_le_of_le_add hclock)
  | finish hrest =>
    rcases hwaits with hwaits | hwaits | ⟨hwaits, -⟩ <;> cases hrest.symm.trans hwaits
  | accept | refuse | drop => exact hstays rfl nofun rfl hwaits

end Warm

namespace Lives

variable {index : Nat} {entry : CacheEntry} {snapshot : Snapshot}

theorem warm (h : task.Lives manager chronicle life) (hhealthy : task.Healthy chronicle life) :
    task.Warm chronicle life := by
  induction h with
  | start clock =>
    exact .cold (List.forall_mem_nil _) rfl ⟨task.start, rfl, ⟨id, fun _ => rfl⟩⟩
  | wait h hclock ih => exact (ih (hhealthy.wait hclock)).wait hclock
  | @move chronicle life after happening h hmove ih =>
    have hbefore := hhealthy.move hmove
    cases ih hbefore with
    | cold phase nothing rest =>
      obtain ⟨rest, hrest, hdoes⟩ := rest
      exact Warm.cold_move phase nothing hrest hdoes hmove
    | waiting split phase unswept swept due store waits =>
      exact Warm.waiting_move hhealthy split phase unswept swept due store waits hmove
    | @sweeping before sweep time split phase due since store =>
      cases hmove with
      | enter hrest hphase => exact Warm.ends_sweep h hbefore split phase due since hrest
      | own hrest hanswer =>
        apply Warm.sweeping_snoc split phase due since store (by nofun)
        intro index snapshot hpublished
        exact (h.stamped (.own hrest hanswer) hpublished).2 time .sweeping (by simp [split])
      | finish | accept | refuse | drop =>
        exact Warm.sweeping_snoc split phase due since store (by nofun) (by nofun)

/-- No snapshot is older than three intervals. -/
theorem age_le (h : task.Lives manager chronicle life) (hhealthy : task.Healthy chronicle life)
    (hentry : (chronicle.store task.cache task.blocks)[index]? = some entry)
    (hsnapshot : entry.snapshot = some snapshot) :
    life.clock - snapshot.taken ≤ 3 * task.interval := by
  cases h.warm hhealthy with
  | cold phase nothing rest =>
    have hmem := Chronicle.mem_published hentry hsnapshot
    rw [nothing] at hmem
    cases hmem
  | sweeping split phase due since store =>
    exact age_in_sweep (hhealthy.timely.le _ due) (store index entry snapshot hentry hsnapshot)
  | waiting split phase unswept swept due store waits =>
    exact age_in_wait (hhealthy.timely.le _ due) (store index entry snapshot hentry hsnapshot)

/-- The sweeps of a healthy task are an interval apart, from the end of one to the beginning of
the next. -/
theorem inRhythm (h : task.Lives manager chronicle life) (hhealthy : task.Healthy chronicle life)
    {earlier later : Chronicle} {time : Instant}
    (hsplit : chronicle = earlier ++ (time, .entered .sweeping) :: later) :
    task.InRhythm earlier time := by
  induction h generalizing later with
  | start clock => cases earlier <;> cases hsplit
  | wait h hclock ih => exact ih (hhealthy.wait hclock) hsplit
  | @move chronicle life after happening h hmove ih =>
    have hbefore := hhealthy.move hmove
    cases Chronicle.split_snoc hsplit with
    | inr hearlier =>
      obtain ⟨rest, -, hchronicle⟩ := hearlier
      exact ih hbefore hchronicle
    | inl hlast =>
      obtain ⟨-, rfl, heq⟩ := hlast
      cases heq
      cases hmove with
      | enter hrest hphase =>
        cases h.warm hbefore with
        | cold phase nothing rest => exact .inl phase
        | sweeping split phase due since store =>
          -- a sweep is followed by a wait
          obtain ⟨left, hleft, hleaves⟩ := h.sweep_left split phase
          cases hrest.symm.trans hleft
          obtain ⟨deadline, hwaiting⟩ := (sweep_does.of_leaves hleaves).2
          cases hwaiting
        | waiting split phase unswept swept due store waits =>
          rcases waits with hwaits | hwaits | ⟨-, hle⟩
          · cases hrest.symm.trans hwaits
          · cases hrest.symm.trans hwaits
          · exact .inr ⟨_, _, _, _, _, split, phase, unswept, swept,
              Nat.le_antisymm (hbefore.timely.le _ due) hle⟩

end Lives

theorem maxDelta_eq {config : CacheConfig} (hlimit : config.maxAllowedDelta = none)
    (htriple : 3 * config.pollInterval ≤ Duration.longest) :
    config.maxDelta = 3 * config.pollInterval := by
  rw [CacheConfig.maxDelta, hlimit]
  exact Nat.min_eq_left htriple

/-- With the limit of age that is not set, a healthy cache is always warm. Once an entry has got a
snapshot it has one that is young enough at every later time, so a read of cells in its block is
served from the entries and makes no other call. And a sweep, if it is not the first one, is begun
an interval after the one before has ended. -/
theorem stays_warm {config : CacheConfig} {engine : Engine} {created : List Action.Step}
    (hcreated : (config.create engine).Runs created (manager, task))
    (hlimit : config.maxAllowedDelta = none)
    (htriple : 3 * config.pollInterval ≤ Duration.longest)
    (h : task.Lives manager chronicle life) (hhealthy : task.Healthy chronicle life) :
    (∀ (earlier later : Chronicle) (index : Nat) (block : CacheBlock) (old : Snapshot),
      chronicle = earlier ++ later →
      (earlier.store manager.cache config.blocks)[index]? = some ⟨block, some old⟩ →
      ∃ snapshot : Snapshot,
        (chronicle.store manager.cache config.blocks)[index]? = some ⟨block, some snapshot⟩ ∧
        life.clock - snapshot.taken ≤ config.maxDelta ∧
        ∀ function start count range, AddressRange.of start count = .ok range →
          block.covers function range = true →
          ∃ cells, ∀ reading result,
            Action.SeenAs manager.cache (chronicle.store manager.cache config.blocks) life.clock
              reading →
            ((manager.read function start count).Runs reading result ↔
              reading = [⟨.entries manager.cache, chronicle.store manager.cache config.blocks⟩,
                ⟨.now, life.clock⟩, ⟨.report (.servedFromCache function range), ()⟩] ∧
              result = .ok cells)) ∧
    ∀ earlier time later, chronicle = earlier ++ (time, .entered .sweeping) :: later →
      task.InRhythm earlier time := by
  refine ⟨?_, fun _ _ _ => h.inRhythm hhealthy⟩
  intro earlier later index block old hsplit hold
  have hdelta := maxDelta_eq hlimit htriple
  obtain ⟨-, progress, hsession⟩ := h.works
  obtain ⟨cache, rfl, rfl⟩ := CacheManager.created_eq hcreated
  let manager : CacheManager := ⟨engine, cache, config.blocks, config.maxDelta⟩
  obtain ⟨snapshot, hentry⟩ := CacheStore.exists_publishAll hold
  rw [← Chronicle.store_append, ← hsplit] at hentry
  have hage : life.clock - snapshot.taken ≤ config.maxDelta := by
    rw [hdelta]
    exact h.age_le hhealthy hentry rfl
  refine ⟨snapshot, hentry, hage, ?_⟩
  intro function start count range hrange hblock
  obtain ⟨hcount, -, rfl⟩ := AddressRange.of_eq_ok_iff.mp hrange
  let entry : CacheEntry := ⟨block, some snapshot⟩
  have hentry' : entry.block.covers function ⟨start, count⟩ = true := hblock
  obtain ⟨hfunction, hfirst, hstop⟩ := CacheEntry.covers_iff.mp hentry'
  let world := worldAt ⟨engine, cache, config.blocks, config.pollInterval⟩ chronicle life
  have hcovers : world.store.Covers life.clock manager.maxDelta function start count :=
    ⟨entry, List.mem_of_getElem? hentry, hfunction, hfirst, hstop, snapshot, rfl, hage⟩
  have hfound := (CacheManager.lookup?_isSome_iff hsession).mpr hcovers
  obtain ⟨cells, hcells⟩ := Option.isSome_iff_exists.mp hfound
  refine ⟨cells, fun reading result hseen => ?_⟩
  have hseen' : Action.SeenAs manager.cache world.store life.clock reading := hseen
  exact CacheManager.read_runs_of_some hrange hcells hseen'

/-- The first of two blocks is polled at the beginning of a sweep and the second one at its end,
and in the next sweep the first one has not been polled yet when that has to be over. Its snapshot
is as old as can be, and a read is still served from it. -/
theorem stays_warm_oldest :
    let first : CacheBlock := ⟨.readHoldingRegisters, ⟨10, 2⟩⟩
    let second : CacheBlock := ⟨.readHoldingRegisters, ⟨11, 1⟩⟩
    let config : CacheConfig := ⟨[first, second], 3, none⟩
    let engine : Engine := ⟨⟨1⟩, .tcp, 0⟩
    let manager : CacheManager := ⟨engine, 0, [first, second], 9⟩
    let task : PollTask := ⟨engine, 0, [first, second], 3⟩
    ∃ chronicle life, task.Lives manager chronicle life ∧ task.Healthy chronicle life ∧
      (chronicle.store 0 config.blocks)[0]? = some ⟨first, some ⟨.registers [7, 8], 0⟩⟩ ∧
      life.clock = config.maxDelta ∧
      ∃ cells, ∀ reading result,
        Action.SeenAs 0 (chronicle.store 0 config.blocks) life.clock reading →
        ((manager.read .readHoldingRegisters 10 2).Runs reading result ↔
          reading = [⟨.entries 0, chronicle.store 0 config.blocks⟩, ⟨.now, life.clock⟩,
            ⟨.report (.servedFromCache .readHoldingRegisters ⟨10, 2⟩), ()⟩] ∧
          result = .ok cells) := by
  intro first second config engine manager task
  let begun : Chronicle :=
    [(0, .own ⟨.report (.pollingStarted 2), ()⟩), (0, .entered .sweeping)]
  let swept : Chronicle := begun ++ (pairCalls 0 0).map (fun step => (0, .own step)) ++
    (secondCalls 1 3).map fun step => (3, .own step)
  let waited : Chronicle := swept ++ [(3, .own ⟨.now, (3 : Nat)⟩)] ++ [(3, .entered (.waiting 6))]
  let chronicle : Chronicle := waited ++ [(6, .own ⟨.await 0 (some 6), .due⟩)] ++
    [(6, .entered .sweeping)]
  let waiting : PollPhase := .waiting 6
  let life : Life := ⟨9, [], true, some (task.step .sweeping)⟩
  have hcreated : (config.create engine).Runs [⟨.newCache [first, second], (0 : Nat)⟩]
      (manager, task) := .ask (.done _)
  have hswept : task.Lives manager swept ⟨3, [], true, some (task.sweepRest 2 [])⟩ := by
    have hbegun : task.Lives manager begun ⟨0, [], true, some (task.sweepRest 0 task.blocks)⟩ :=
      .begun
    have hpolled := hbegun.polls (pairCalls_run 0 0) shown_pairCalls
    exact (hpolled.wait (Nat.zero_le 3)).polls (secondCalls_run 1 3) shown_secondCalls
  have hwaited : task.Lives manager waited ⟨6, [], true, some (task.step waiting)⟩ :=
    .wait ((hswept.own (3 : Nat) ⟨rfl, rfl⟩).enter nofun) (by decide)
  have h : task.Lives manager chronicle life :=
    .wait ((hwaited.own .due ⟨⟨6, rfl, Nat.le_refl 6⟩, rfl⟩).enter nofun) (by decide)
  have hhealthy : task.Healthy chronicle life := by
    refine ⟨?_, List.forall_mem_nil _, ?_, rfl⟩
    · simp [chronicle, waited, swept, begun, pairCalls, secondCalls, exchangeCalls,
        Happening.Fails]
    · simp [chronicle, waited, swept, begun, pairCalls, secondCalls, exchangeCalls,
        Chronicle.Timely, Happening.due?, life, task]
  have hstore : (chronicle.store 0 config.blocks)[0]? =
      some ⟨first, some ⟨.registers [7, 8], 0⟩⟩ := rfl
  obtain ⟨hwarm, -⟩ := stays_warm hcreated rfl (by decide) h hhealthy
  obtain ⟨-, -, -, hreads⟩ := hwarm chronicle [] 0 _ _ (List.append_nil _).symm hstore
  exact ⟨chronicle, life, h, hhealthy, hstore, rfl,
    hreads .readHoldingRegisters 10 2 ⟨10, 2⟩ rfl rfl⟩

end PollTask

end ModbusMaster
