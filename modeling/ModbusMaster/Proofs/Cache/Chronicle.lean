import ModbusMaster.Cache.Polling
import ModbusMaster.Proofs.Engine.Exchange

/-!
Chronicles of a polling task: what has happened around the task so far, and when. What can be said
of a chronicle is kept or brought about when one more thing happens.
-/

namespace ModbusMaster

/-- What happens around a polling task. -/
inductive Happening where
  /-- The task makes a call and has got the answer. -/
  | own (step : Action.Step)
  | entered (phase : PollPhase)
  | ended
  | sent (command : Command) (result : Except RequestError Unit)
  /-- Nobody can send commands any more. -/
  | dropped

namespace Happening

/-- What the task has been waiting for. -/
def signal? : Happening → Option Signal
  | own ⟨.await _ _, signal⟩ => some signal
  | _ => none

def received? (happening : Happening) : Option Command :=
  match happening.signal? with
  | some (.command command) => some command
  | _ => none

def accepted? : Happening → Option Command
  | sent command (.ok _) => some command
  | _ => none

def call? : Happening → Option Action.Step
  | own step => some step
  | _ => none

def isTasks : Happening → Bool
  | sent .. | dropped => false
  | _ => true

/-- The task is told to stop, or finds that nobody can command it any more. -/
def Ends (happening : Happening) : Prop :=
  happening.signal? = some (.command .stop) ∨ happening.signal? = some .closed

/-- The task makes a call that is not a wait for commands. -/
def Works (happening : Happening) : Prop :=
  happening.call?.isSome ∧ happening.signal? = none

variable {happening : Happening}

theorem not_ends (h : happening.signal? = none) : ¬ happening.Ends := by
  intro hends
  rw [Ends, h] at hends
  cases hends with
  | inl heq => cases heq
  | inr heq => cases heq

theorem not_ends_of_signal {signal : Signal} (h : happening.signal? = some signal)
    (hstop : signal ≠ .command .stop) (hclosed : signal ≠ .closed) : ¬ happening.Ends := by
  intro hends
  rw [Ends, h] at hends
  cases hends with
  | inl heq => exact hstop (Option.some.inj heq)
  | inr heq => exact hclosed (Option.some.inj heq)

theorem received?_eq_none (h : happening.signal? = none) : happening.received? = none := by
  rw [received?, h]

theorem not_works {signal : Signal} (h : happening.signal? = some signal) :
    ¬ happening.Works := by
  intro hworks
  rw [Works, h] at hworks
  cases hworks.2

theorem received?_of_not_tasks (h : happening.isTasks = false) : happening.received? = none := by
  cases happening with
  | sent command result => rfl
  | dropped => rfl
  | _ => cases h

end Happening

/-- A wait for commands. -/
def Call.Awaits : Call → Prop
  | .await .. => True
  | _ => False

theorem Call.OfExchange.not_awaits {call : Call} (h : call.OfExchange) : ¬ call.Awaits := by
  cases call <;> first | exact h.elim | exact id

theorem Happening.signal?_own {step : Action.Step} (h : ¬ step.call.Awaits) :
    (Happening.own step).signal? = none := by
  rcases step with ⟨call, answer⟩
  cases call with
  | await => exact absurd trivial h
  | _ => rfl

/-- What has happened so far, and when. -/
abbrev Chronicle := List (Instant × Happening)

namespace Chronicle

/-- The commands that the task has received. -/
def received (chronicle : Chronicle) : List Command :=
  chronicle.filterMap (·.2.received?)

/-- The commands that were sent and not refused. -/
def accepted (chronicle : Chronicle) : List Command :=
  chronicle.filterMap (·.2.accepted?)

/-- The calls that the task has made. -/
def calls (chronicle : Chronicle) : List Action.Step :=
  chronicle.filterMap (·.2.call?)

/-- What the task itself has done. -/
def tasks (chronicle : Chronicle) : Chronicle :=
  chronicle.filter (·.2.isTasks)

variable {chronicle before middle : Chronicle} {entry : Instant × Happening}
  {commands : List Command} {time instant : Instant} {interval : Duration} {last : List Happening}

@[simp] theorem received_append :
    received (before ++ middle) = received before ++ received middle :=
  List.filterMap_append

@[simp] theorem accepted_append :
    accepted (before ++ middle) = accepted before ++ accepted middle :=
  List.filterMap_append

@[simp] theorem calls_append : calls (before ++ middle) = calls before ++ calls middle :=
  List.filterMap_append

@[simp] theorem tasks_append : tasks (before ++ middle) = tasks before ++ tasks middle :=
  List.filter_append before middle

theorem received_singleton : received [entry] = entry.2.received?.toList := by
  cases h : entry.2.received? with
  | none => exact List.filterMap_cons_none h
  | some command => exact List.filterMap_cons_some h

theorem tasks_split (hentry : entry.2.isTasks = true) :
    tasks (before ++ entry :: middle) = tasks before ++ entry :: tasks middle := by
  rw [tasks_append]
  congr 1
  exact List.filter_cons_of_pos hentry

/-- Others receive no commands. -/
theorem received_tasks : received (tasks chronicle) = received chronicle := by
  rw [received, tasks, List.filterMap_filter]
  apply List.filterMap_congr
  intro entry _
  cases htasks : entry.2.isTasks with
  | true => rfl
  | false => exact (Happening.received?_of_not_tasks htasks).symm

theorem received_eq_nil (h : ∀ step ∈ calls chronicle, ¬ step.call.Awaits) :
    received chronicle = [] := by
  apply List.filterMap_eq_nil_iff.mpr
  intro entry hentry
  cases hhappening : entry.2 with
  | own step =>
    have hstep : step ∈ calls chronicle :=
      List.mem_filterMap.mpr ⟨entry, hentry, by rw [hhappening]; rfl⟩
    exact Happening.received?_eq_none (Happening.signal?_own (h step hstep))
  | _ => rfl

/-- Where a list that has got one more element splits. -/
theorem split_snoc {α : Type} {list before after : List α} {new x : α}
    (h : list ++ [new] = before ++ x :: after) :
    (after = [] ∧ list = before ∧ new = x) ∨
      ∃ rest, after = rest ++ [new] ∧ list = before ++ x :: rest := by
  cases List.eq_nil_or_concat after with
  | inl hnil =>
    subst hnil
    obtain ⟨hlist, hnew⟩ := List.append_inj' h rfl
    exact .inl ⟨rfl, hlist, List.head_eq_of_cons_eq hnew⟩
  | inr hconcat =>
    obtain ⟨rest, y, hconcat⟩ := hconcat
    rw [List.concat_eq_append] at hconcat
    subst hconcat
    have hsplit : list ++ [new] = (before ++ x :: rest) ++ [y] := by
      rw [h, List.append_assoc, List.cons_append]
    obtain ⟨hlist, hnew⟩ := List.append_inj' hsplit rfl
    rw [List.head_eq_of_cons_eq hnew]
    exact .inr ⟨rest, rfl, hlist⟩

/-- The task has entered no other phase. -/
def InOnePhase (chronicle : Chronicle) : Prop :=
  ∀ entry ∈ chronicle, ∀ phase, entry.2 ≠ .entered phase

/-! ### What a chronicle is like -/

/-- Every pause has been followed by a resumption. -/
def Resumed (chronicle : Chronicle) : Prop :=
  ∀ before entry after, chronicle = before ++ entry :: after →
    entry.2.received? = some .pause → .resume ∈ received after

def Unended (chronicle : Chronicle) : Prop :=
  ∀ entry ∈ chronicle, ¬ entry.2.Ends

/-- Commands were received, among others and in this order, since the last sweep was begun. -/
def SinceSweep (chronicle : Chronicle) (commands : List Command) : Prop :=
  ∀ before time after, chronicle = before ++ (time, .entered .sweeping) :: after →
    commands.Sublist (received after)

/-- The last of the work was done an interval before an instant. -/
def Rested (chronicle : Chronicle) (interval : Duration) (instant : Instant) : Prop :=
  ∀ entry ∈ chronicle, entry.2.Works → entry.1 + interval ≤ instant

/-- After the task was told to stop it has done this. -/
def AfterEnd (chronicle : Chronicle) (last : List Happening) : Prop :=
  ∀ before entry after, chronicle = before ++ entry :: after → entry.2.Ends →
    after.map (·.2) = last

theorem Resumed.quiet (h : Resumed chronicle) (hentry : entry.2.received? ≠ some .pause) :
    Resumed (chronicle ++ [entry]) := by
  intro before pause after hsplit hpause
  cases split_snoc hsplit with
  | inl hlast =>
    obtain ⟨-, -, rfl⟩ := hlast
    exact absurd hpause hentry
  | inr hearlier =>
    obtain ⟨rest, rfl, hchronicle⟩ := hearlier
    rw [received_append]
    exact List.mem_append_left _ (h before pause rest hchronicle hpause)

theorem resumed_of_resume (hentry : entry.2.received? = some .resume) :
    Resumed (chronicle ++ [entry]) := by
  intro before pause after hsplit hpause
  cases split_snoc hsplit with
  | inl hlast =>
    obtain ⟨-, -, rfl⟩ := hlast
    rw [hentry] at hpause
    cases hpause
  | inr hearlier =>
    obtain ⟨rest, rfl, -⟩ := hearlier
    rw [received_append, received_singleton, hentry]
    exact List.mem_append_right _ (List.mem_singleton_self _)

theorem Unended.snoc (h : Unended chronicle) (hentry : ¬ entry.2.Ends) :
    Unended (chronicle ++ [entry]) :=
  List.forall_mem_append.mpr ⟨h, List.forall_mem_singleton.mpr hentry⟩

theorem Unended.ends (h : Unended chronicle) : AfterEnd (chronicle ++ [entry]) [] := by
  intro before stop after hsplit hends
  cases split_snoc hsplit with
  | inl hlast =>
    rw [hlast.1]
    rfl
  | inr hearlier =>
    obtain ⟨rest, -, hchronicle⟩ := hearlier
    have hmem : stop ∈ chronicle := by
      rw [hchronicle]
      exact List.mem_append_right _ List.mem_cons_self
    exact absurd hends (h stop hmem)

theorem AfterEnd.snoc (h : AfterEnd chronicle last) (hentry : ¬ entry.2.Ends) :
    AfterEnd (chronicle ++ [entry]) (last ++ [entry.2]) := by
  intro before stop after hsplit hends
  cases split_snoc hsplit with
  | inl hlast =>
    obtain ⟨-, -, rfl⟩ := hlast
    exact absurd hends hentry
  | inr hearlier =>
    obtain ⟨rest, rfl, hchronicle⟩ := hearlier
    rw [List.map_append, h before stop rest hchronicle hends]
    rfl

theorem SinceSweep.snoc (h : SinceSweep chronicle commands)
    (hentry : entry.2 ≠ .entered .sweeping) :
    SinceSweep (chronicle ++ [entry]) (commands ++ entry.2.received?.toList) := by
  intro before time after hsplit
  cases split_snoc hsplit with
  | inl hlast =>
    obtain ⟨-, -, rfl⟩ := hlast
    exact absurd rfl hentry
  | inr hearlier =>
    obtain ⟨rest, rfl, hchronicle⟩ := hearlier
    rw [received_append, received_singleton]
    exact (h before time rest hchronicle).append (List.Sublist.refl _)

theorem sinceSweep_nil : SinceSweep chronicle [] :=
  fun _ _ _ _ => List.nil_sublist _

/-- No sweep was begun before anything has happened. -/
theorem sinceSweep_start : SinceSweep [] commands := by
  intro before time after hsplit
  cases before <;> cases hsplit

theorem Rested.snoc (h : Rested chronicle interval instant) (hentry : ¬ entry.2.Works) :
    Rested (chronicle ++ [entry]) interval instant :=
  List.forall_mem_append.mpr
    ⟨h, List.forall_mem_singleton.mpr fun hworks => absurd hworks hentry⟩

theorem Rested.mono {later : Instant} (h : Rested chronicle interval instant)
    (hle : instant ≤ later) : Rested chronicle interval later :=
  fun entry hentry hworks => Nat.le_trans (h entry hentry hworks) hle

/-- All that was done up to now will have been done an interval before the deadline. -/
theorem rested_of_times (h : ∀ entry ∈ chronicle, entry.1 ≤ instant) :
    Rested chronicle interval (instant + interval) :=
  fun entry hentry _ => Nat.add_le_add_right (h entry hentry) interval

/-- The task was not told to stop, and a pause is over. -/
structure Running (chronicle : Chronicle) : Prop where
  resumed : Resumed chronicle
  unended : Unended chronicle

theorem running_nil : Running [] := by
  refine ⟨?_, List.forall_mem_nil _⟩
  intro before entry after hsplit
  cases before <;> cases hsplit

theorem Running.snoc (h : Running chronicle) (hpause : entry.2.received? ≠ some .pause)
    (hends : ¬ entry.2.Ends) : Running (chronicle ++ [entry]) :=
  ⟨h.resumed.quiet hpause, h.unended.snoc hends⟩

/-- Without a signal nothing changes. -/
theorem Running.quiet (h : Running chronicle) (hentry : entry.2.signal? = none) :
    Running (chronicle ++ [entry]) := by
  apply h.snoc
  · rw [Happening.received?_eq_none hentry]
    intro heq
    cases heq
  · exact Happening.not_ends hentry

end Chronicle

end ModbusMaster
