import Mathlib.Logic.Function.Basic
import ModbusMaster.Proofs.Engine.Turns

/-!
Callers that share engines, and engines that share buses. Any number of callers make their calls
one at a time and in any order; a lock is given to one of them at a time, and everything else may
be answered in any way. `Sharing` is what can come of that. `Staged` keeps in addition where every
caller is, and `Sound` says how that and the locks belong together.
-/

namespace ModbusMaster

/-- One turn of a caller, after `index` others of its own. -/
@[ext] structure Turn where
  caller : Nat
  index : Nat
  deriving DecidableEq

/-- The calls that were made and how they were answered. Each belongs to the turn that its caller
was in, or was to take next. -/
abbrev Journal := List (Turn × Action.Step)

/-- Callers with the transports of their engines. -/
structure Plant where
  /-- What every caller has still to do; nothing if it is idle. -/
  left : Nat → Option (Action Unit)
  /-- The transports, as they were given back last. -/
  transports : Handle → Transport
  /-- Who has the transport of an engine. -/
  user : Handle → Option Nat
  /-- Who has a bus. -/
  holder : Handle → Option Nat
  /-- How many turns every caller has ended. -/
  turns : Nat → Nat

namespace Plant

/-- Nobody has done anything yet. -/
def start (initial : Handle → Serial.Transport) : Plant where
  left _ := none
  transports engine := .rtu (initial engine)
  user _ := none
  holder _ := none
  turns _ := 0

/-- A caller goes on with something. -/
def goOn (plant : Plant) (caller : Nat) (left : Option (Action Unit)) : Plant :=
  { plant with left := Function.update plant.left caller left }

/-- The turn that a caller is in or takes next. -/
def turn (plant : Plant) (caller : Nat) : Turn :=
  ⟨caller, plant.turns caller⟩

/-- How a call of a caller may be answered. Transports and buses are taken by one caller at a
time; what concerns neither may be answered in any way. -/
def Answers (caller : Nat) : Environment Plant
  | plant, ⟨.acquireTransport engine, found⟩, after =>
      plant.user engine = none ∧ found = plant.transports engine ∧
        after = { plant with user := Function.update plant.user engine (some caller) }
  | plant, ⟨.releaseTransport engine transport, _⟩, after =>
      after = { plant with
        transports := Function.update plant.transports engine transport
        user := Function.update plant.user engine none
        turns := Function.update plant.turns caller (plant.turns caller + 1) }
  | plant, ⟨.acquireBus bus, _⟩, after =>
      plant.holder bus = none ∧
        after = { plant with holder := Function.update plant.holder bus (some caller) }
  | plant, ⟨.releaseBus bus, _⟩, after =>
      after = { plant with holder := Function.update plant.holder bus none }
  | plant, _, after => after = plant

variable {plant after : Plant} {caller : Nat} {step : Action.Step}

/-- Calls that lock nothing change nothing. -/
theorem Answers.eq (h : plant.Answers caller step after) (hlocks : step.call.locks = false) :
    after = plant := by
  rcases step with ⟨call, answer⟩
  cases call with
  | acquireBus | releaseBus | acquireTransport | releaseTransport => cases hlocks
  | _ => exact h

/-- Calls that lock nothing are never waited for. -/
theorem answers_of_locks (hlocks : step.call.locks = false) : plant.Answers caller step plant := by
  rcases step with ⟨call, answer⟩
  cases call with
  | acquireBus | releaseBus | acquireTransport | releaseTransport => cases hlocks
  | _ => rfl

/-- The answer to a call does not make anybody go on. -/
theorem Answers.left_eq (h : plant.Answers caller step after) : after.left = plant.left := by
  rcases step with ⟨call, answer⟩
  cases call with
  | acquireBus =>
    obtain ⟨-, rfl⟩ := h
    rfl
  | acquireTransport =>
    obtain ⟨-, -, rfl⟩ := h
    rfl
  | releaseBus | releaseTransport =>
    cases h
    rfl
  | _ => exact congrArg left h

/-- The answer does not depend on what anybody has still to do. -/
theorem Answers.goOn (h : plant.Answers caller step after) (caller' : Nat)
    (left : Option (Action Unit)) :
    (plant.goOn caller' left).Answers caller step (after.goOn caller' left) := by
  rcases step with ⟨call, answer⟩
  cases call with
  | acquireBus =>
    obtain ⟨hfree, rfl⟩ := h
    exact ⟨hfree, rfl⟩
  | acquireTransport =>
    obtain ⟨hfree, hfound, rfl⟩ := h
    exact ⟨hfree, hfound, rfl⟩
  | _ =>
    cases h
    rfl

/-- No answers depend on what anybody has still to do. -/
theorem allows_goOn {calls : List Action.Step}
    (h : Environment.Allows (Answers caller) plant calls after) (caller' : Nat)
    (left : Option (Action Unit)) :
    Environment.Allows (Answers caller) (plant.goOn caller' left) calls
      (after.goOn caller' left) := by
  induction h with
  | nil => exact .nil _
  | cons answer rest ih => exact .cons (answer.goOn caller' left) ih

/-- A caller has a call to make that can be answered. -/
def CanGoOn (plant : Plant) (caller : Nat) : Prop :=
  ∃ call next answer after, plant.left caller = some (.ask call next) ∧
    plant.Answers caller ⟨call, answer⟩ after

/-- Whether a caller can go on depends on its next call. -/
theorem canGoOn_iff {left rest : Action Unit} {calls : List Action.Step}
    (hleft : plant.left caller = some left) (hleaves : left.Leaves (step :: calls) rest) :
    plant.CanGoOn caller ↔
      ∃ answer after, plant.Answers caller ⟨step.call, answer⟩ after := by
  cases hleaves with
  | ask rest =>
    constructor
    · rintro ⟨call, next, answer, after, heq, hanswer⟩
      cases hleft.symm.trans heq
      exact ⟨answer, after, hanswer⟩
    · rintro ⟨answer, after, hanswer⟩
      exact ⟨_, _, answer, after, hleft, hanswer⟩

theorem canGoOn_of_locks {call : Call} {next : call.Answer → Action Unit}
    (hleft : plant.left caller = some (.ask call next)) (hlocks : call.locks = false) :
    plant.CanGoOn caller := by
  obtain ⟨answer⟩ := Action.nonempty_answer call
  exact ⟨call, next, answer, plant, hleft, answers_of_locks hlocks⟩

/-- A caller has the transport of an engine, or waits for one. -/
def Operating (plant : Plant) (caller : Nat) : Prop :=
  (∃ engine, plant.user engine = some caller) ∨
    ∃ engine next, plant.left caller = some (.ask (.acquireTransport engine) next)

end Plant

/-- What callers can have done and what has become of them. An idle caller may begin anything that
keeps to the order of calls. -/
inductive Sharing (initial : Handle → Serial.Transport) : Journal → Plant → Prop where
  | start : Sharing initial [] (.start initial)
  | begin {journal : Journal} {plant : Plant} {caller : Nat} {errand : Action Unit}
      (h : Sharing initial journal plant) (hidle : plant.left caller = none)
      (horderly : errand.Orderly) : Sharing initial journal (plant.goOn caller (some errand))
  | call {journal : Journal} {plant after : Plant} {caller : Nat} {call : Call}
      {next : call.Answer → Action Unit} {answer : call.Answer}
      (h : Sharing initial journal plant) (hleft : plant.left caller = some (.ask call next))
      (hanswer : plant.Answers caller ⟨call, answer⟩ after) :
      Sharing initial (journal ++ [(plant.turn caller, ⟨call, answer⟩)])
        (after.goOn caller (some (next answer)))
  | finish {journal : Journal} {plant : Plant} {caller : Nat}
      (h : Sharing initial journal plant) (hleft : plant.left caller = some (.done ())) :
      Sharing initial journal (plant.goOn caller none)

/-- As `Sharing`, with the stages that the callers have come to. -/
inductive Staged (initial : Handle → Serial.Transport) :
    Journal → Plant → (Nat → Stage) → Prop where
  | start : Staged initial [] (.start initial) fun _ => .outside
  | begin {journal : Journal} {plant : Plant} {stages : Nat → Stage} {caller : Nat}
      {errand : Action Unit} (h : Staged initial journal plant stages)
      (hidle : plant.left caller = none) (horderly : errand.Orderly) :
      Staged initial journal (plant.goOn caller (some errand)) stages
  | call {journal : Journal} {plant after : Plant} {stages : Nat → Stage} {stage : Stage}
      {caller : Nat} {call : Call} {next : call.Answer → Action Unit} {answer : call.Answer}
      (h : Staged initial journal plant stages)
      (hleft : plant.left caller = some (.ask call next))
      (hanswer : plant.Answers caller ⟨call, answer⟩ after)
      (hnext : (stages caller).Next ⟨call, answer⟩ stage) :
      Staged initial (journal ++ [(plant.turn caller, ⟨call, answer⟩)])
        (after.goOn caller (some (next answer))) (Function.update stages caller stage)
  | finish {journal : Journal} {plant : Plant} {stages : Nat → Stage} {caller : Nat}
      (h : Staged initial journal plant stages) (hleft : plant.left caller = some (.done ())) :
      Staged initial journal (plant.goOn caller none) stages

/-! ### Locks -/

/-- Whoever is at a place has the lock of it, and nobody else has. -/
def Guarded (lock : Handle → Option Nat) (place : Nat → Option Handle) : Prop :=
  ∀ handle caller, lock handle = some caller ↔ place caller = some handle

namespace Guarded

variable {lock : Handle → Option Nat} {place : Nat → Option Handle} {handle : Handle} {caller : Nat}

theorem take (h : Guarded lock place) (hfree : lock handle = none) (hplace : place caller = none) :
    Guarded (Function.update lock handle (some caller))
      (Function.update place caller (some handle)) := by
  intro handle' caller'
  by_cases hhandle : handle' = handle
  · by_cases hcaller : caller' = caller
    · rw [hhandle, hcaller, Function.update_self, Function.update_self]
      exact iff_of_true rfl rfl
    · rw [hhandle, Function.update_self, Function.update_of_ne hcaller, ← h, hfree]
      exact iff_of_false (fun heq => hcaller (Option.some.inj heq).symm) (fun heq => by cases heq)
  · rw [Function.update_of_ne hhandle, h]
    by_cases hcaller : caller' = caller
    · rw [hcaller, Function.update_self, hplace]
      exact iff_of_false (fun heq => by cases heq) fun heq => hhandle (Option.some.inj heq).symm
    · rw [Function.update_of_ne hcaller]

theorem give (h : Guarded lock place) (hplace : place caller = some handle) :
    Guarded (Function.update lock handle none) (Function.update place caller none) := by
  intro handle' caller'
  have hlock := (h handle caller).mpr hplace
  by_cases hhandle : handle' = handle
  · rw [hhandle, Function.update_self]
    by_cases hcaller : caller' = caller
    · rw [hcaller, Function.update_self]
      exact iff_of_false (fun heq => by cases heq) (fun heq => by cases heq)
    · rw [Function.update_of_ne hcaller, ← h, hlock]
      exact iff_of_false (fun heq => by cases heq) fun heq => hcaller (Option.some.inj heq).symm
  · rw [Function.update_of_ne hhandle, h]
    by_cases hcaller : caller' = caller
    · rw [hcaller, Function.update_self, hplace]
      exact iff_of_false (fun heq => hhandle (Option.some.inj heq).symm) (fun heq => by cases heq)
    · rw [Function.update_of_ne hcaller]

theorem stay {place' : Option Handle} (h : Guarded lock place) (hplace : place' = place caller) :
    Guarded lock (Function.update place caller place') := by
  rw [hplace, Function.update_eq_self]
  exact h

end Guarded

namespace Stage

/-- The engine whose transport a caller has. -/
def engine? : Stage → Option Handle
  | inside engine _ _ => some engine
  | outside => none

/-- The bus that a caller has. -/
def bus? : Stage → Option Handle
  | inside _ serial (.held _) => some serial.bus
  | _ => none

theorem bus?_of_free {engine : Handle} {serial : Serial.Transport} {use : BusUse}
    (hfree : use.Free) : (inside engine serial use).bus? = none := by
  cases use with
  | held left => exact hfree.elim
  | _ => rfl

/-- The bus is held inside of turns only. -/
theorem engine?_of_bus {stage : Stage} {bus : Handle} (h : stage.bus? = some bus) :
    ∃ engine, stage.engine? = some engine := by
  cases stage with
  | outside => cases h
  | inside engine serial use => exact ⟨engine, rfl⟩

/-- What a caller has still to do keeps to the order from its stage on. -/
def Suits (stage : Stage) : Option (Action Unit) → Prop
  | none => stage = outside
  | some left => left.Obeys Next (fun _ stage => stage = outside) stage

/-- One caller goes on, and all the others stay where they are. -/
theorem suits_update {stages : Nat → Stage} {lefts : Nat → Option (Action Unit)} {caller : Nat}
    {stage : Stage} {left : Option (Action Unit)}
    (h : ∀ caller, (stages caller).Suits (lefts caller)) (hleft : stage.Suits left)
    (caller' : Nat) :
    (Function.update stages caller stage caller').Suits
      (Function.update lefts caller left caller') := by
  by_cases hcaller : caller' = caller
  · rw [hcaller, Function.update_self, Function.update_self]
    exact hleft
  · rw [Function.update_of_ne hcaller, Function.update_of_ne hcaller]
    exact h caller'

end Stage

/-- How the stages of the callers and the plant belong together. -/
structure Sound (initial : Handle → Serial.Transport) (plant : Plant) (stages : Nat → Stage) :
    Prop where
  suits : ∀ caller, (stages caller).Suits (plant.left caller)
  users : Guarded plant.user fun caller => (stages caller).engine?
  holders : Guarded plant.holder fun caller => (stages caller).bus?
  /-- A transport is found as it was given back. -/
  found : ∀ {caller engine serial use}, stages caller = .inside engine serial use →
    plant.transports engine = .rtu serial
  serial : ∀ engine, ∃ health, plant.transports engine = .rtu { initial engine with health }

namespace Sound

variable {initial : Handle → Serial.Transport} {plant after : Plant} {stages : Nat → Stage}
  {caller : Nat}

theorem start : Sound initial (.start initial) fun _ => .outside where
  suits _ := rfl
  users _ _ := iff_of_false (fun heq => by cases heq) (fun heq => by cases heq)
  holders _ _ := iff_of_false (fun heq => by cases heq) (fun heq => by cases heq)
  found heq := by cases heq
  serial engine := ⟨(initial engine).health, rfl⟩

/-- A caller goes on with something else that suits its stage. -/
theorem goOn {left : Option (Action Unit)} (h : Sound initial plant stages)
    (hleft : (stages caller).Suits left) : Sound initial (plant.goOn caller left) stages where
  suits := by
    have hsame : stages = Function.update stages caller (stages caller) :=
      (Function.update_eq_self caller stages).symm
    rw [hsame]
    exact Stage.suits_update h.suits hleft
  users := h.users
  holders := h.holders
  found := h.found
  serial := h.serial

variable {stage : Stage} {call : Call} {answer : call.Answer}

theorem users_next (h : Sound initial plant stages)
    (hanswer : plant.Answers caller ⟨call, answer⟩ after)
    (hnext : (stages caller).Next ⟨call, answer⟩ stage) :
    Guarded after.user fun c => (Function.update stages caller stage c).engine? := by
  have hplace : (fun c => (Function.update stages caller stage c).engine?) =
      Function.update (fun c => (stages c).engine?) caller stage.engine? :=
    Function.comp_update Stage.engine? stages caller stage
  rw [hplace]
  generalize hstage : stages caller = before at hnext
  have hbefore : (stages caller).engine? = before.engine? := congrArg Stage.engine? hstage
  cases hnext with
  | aside haside =>
    rw [hanswer.eq haside.2]
    exact h.users.stay hbefore.symm
  | stroke hstroke =>
    rw [hanswer.eq (Call.locks_of_stroke hstroke)]
    exact h.users.stay hbefore.symm
  | takeTransport =>
    obtain ⟨hfree, -, rfl⟩ := hanswer
    exact h.users.take hfree hbefore
  | takeBus =>
    obtain ⟨-, rfl⟩ := hanswer
    exact h.users.stay hbefore.symm
  | giveBus =>
    cases hanswer
    exact h.users.stay hbefore.symm
  | giveTransport =>
    cases hanswer
    exact h.users.give hbefore

theorem holders_next (h : Sound initial plant stages)
    (hanswer : plant.Answers caller ⟨call, answer⟩ after)
    (hnext : (stages caller).Next ⟨call, answer⟩ stage) :
    Guarded after.holder fun c => (Function.update stages caller stage c).bus? := by
  have hplace : (fun c => (Function.update stages caller stage c).bus?) =
      Function.update (fun c => (stages c).bus?) caller stage.bus? :=
    Function.comp_update Stage.bus? stages caller stage
  rw [hplace]
  generalize hstage : stages caller = before at hnext
  have hbefore : (stages caller).bus? = before.bus? := congrArg Stage.bus? hstage
  cases hnext with
  | aside haside =>
    rw [hanswer.eq haside.2]
    exact h.holders.stay hbefore.symm
  | stroke hstroke =>
    rw [hanswer.eq (Call.locks_of_stroke hstroke)]
    exact h.holders.stay hbefore.symm
  | takeTransport =>
    obtain ⟨-, -, rfl⟩ := hanswer
    exact h.holders.stay hbefore.symm
  | takeBus =>
    obtain ⟨hfree, rfl⟩ := hanswer
    exact h.holders.take hfree hbefore
  | giveBus =>
    cases hanswer
    exact h.holders.give hbefore
  | giveTransport hfree =>
    cases hanswer
    rw [Stage.bus?_of_free hfree] at hbefore
    exact h.holders.stay hbefore.symm

/-- No two callers have the transport of one engine. -/
theorem caller_unique (h : Sound initial plant stages) {caller' : Nat} {engine : Handle}
    (hengine : (stages caller).engine? = some engine)
    (hengine' : (stages caller').engine? = some engine) : caller' = caller :=
  Option.some.inj (((h.users engine caller').mpr hengine').symm.trans
    ((h.users engine caller).mpr hengine))

theorem found_next (h : Sound initial plant stages)
    (hanswer : plant.Answers caller ⟨call, answer⟩ after)
    (hnext : (stages caller).Next ⟨call, answer⟩ stage) {caller' : Nat} {engine : Handle}
    {serial : Serial.Transport} {use : BusUse}
    (hinside : Function.update stages caller stage caller' = .inside engine serial use) :
    after.transports engine = .rtu serial := by
  by_cases hcaller : caller' = caller
  · rw [hcaller, Function.update_self] at hinside
    subst hinside
    generalize hstage : stages caller = before at hnext
    cases hnext with
    | aside haside =>
      rw [hanswer.eq haside.2]
      exact h.found hstage
    | stroke hstroke =>
      rw [hanswer.eq (Call.locks_of_stroke hstroke)]
      exact h.found hstage
    | takeTransport =>
      obtain ⟨-, hfound, rfl⟩ := hanswer
      exact hfound.symm
    | takeBus =>
      obtain ⟨-, rfl⟩ := hanswer
      exact h.found hstage
    | giveBus =>
      cases hanswer
      exact h.found hstage
  · rw [Function.update_of_ne hcaller] at hinside
    have hfound := h.found hinside
    generalize hstage : stages caller = before at hnext
    cases hnext with
    | aside haside =>
      rw [hanswer.eq haside.2]
      exact hfound
    | stroke hstroke =>
      rw [hanswer.eq (Call.locks_of_stroke hstroke)]
      exact hfound
    | takeTransport =>
      obtain ⟨-, -, rfl⟩ := hanswer
      exact hfound
    | takeBus =>
      obtain ⟨-, rfl⟩ := hanswer
      exact hfound
    | giveBus =>
      cases hanswer
      exact hfound
    | @giveTransport engine' =>
      cases hanswer
      -- the transport that is given back is not the one that the other caller has
      have hengine : engine ≠ engine' := by
        intro heq
        rw [← heq] at hstage
        exact hcaller (h.caller_unique (congrArg Stage.engine? hstage)
          (congrArg Stage.engine? hinside))
      exact (Function.update_of_ne hengine _ _).trans hfound

theorem serial_next (h : Sound initial plant stages)
    (hanswer : plant.Answers caller ⟨call, answer⟩ after)
    (hnext : (stages caller).Next ⟨call, answer⟩ stage) (engine : Handle) :
    ∃ health, after.transports engine = .rtu { initial engine with health } := by
  have hserial := h.serial engine
  generalize hstage : stages caller = before at hnext
  cases hnext with
  | aside haside =>
    rw [hanswer.eq haside.2]
    exact hserial
  | stroke hstroke =>
    rw [hanswer.eq (Call.locks_of_stroke hstroke)]
    exact hserial
  | takeTransport =>
    obtain ⟨-, -, rfl⟩ := hanswer
    exact hserial
  | takeBus =>
    obtain ⟨-, rfl⟩ := hanswer
    exact hserial
  | giveBus =>
    cases hanswer
    exact hserial
  | @giveTransport engine' serial use health =>
    cases hanswer
    by_cases hengine : engine = engine'
    · obtain ⟨health', hserial⟩ := hserial
      subst hengine
      rw [h.found hstage] at hserial
      cases hserial
      exact ⟨health, Function.update_self _ _ _⟩
    · exact hserial.imp fun _ heq => (Function.update_of_ne hengine _ _).trans heq

/-- A call that is answered and in order. -/
theorem next {next : call.Answer → Action Unit} (h : Sound initial plant stages)
    (hleft : plant.left caller = some (.ask call next))
    (hanswer : plant.Answers caller ⟨call, answer⟩ after)
    (hnext : (stages caller).Next ⟨call, answer⟩ stage) :
    Sound initial (after.goOn caller (some (next answer)))
      (Function.update stages caller stage) where
  suits := by
    have hobeys := h.suits caller
    rw [hleft] at hobeys
    rw [Plant.goOn, hanswer.left_eq]
    exact Stage.suits_update h.suits (hobeys.2 answer stage hnext)
  users := by
    have husers := h.users_next hanswer hnext
    exact husers
  holders := by
    have hholders := h.holders_next hanswer hnext
    exact hholders
  found := h.found_next hanswer hnext
  serial := by
    have hserial := h.serial_next hanswer hnext
    exact hserial

/-- A call of a caller is in order, however it is answered. -/
theorem next_of_answers {next : call.Answer → Action Unit} (h : Sound initial plant stages)
    (hleft : plant.left caller = some (.ask call next))
    (hanswer : plant.Answers caller ⟨call, answer⟩ after) :
    ∃ stage, (stages caller).Next ⟨call, answer⟩ stage := by
  have hobeys := h.suits caller
  rw [hleft] at hobeys
  obtain ⟨⟨expected, stage, hnext⟩, -⟩ := hobeys
  -- some answer is in order; the one that was given leads on as well
  generalize stages caller = before at hnext
  cases hnext with
  | aside haside => exact ⟨_, .aside haside⟩
  | stroke hstroke => exact ⟨_, .stroke hstroke⟩
  | @takeTransport engine =>
    obtain ⟨health, hserial⟩ := h.serial engine
    obtain ⟨-, hfound, -⟩ := hanswer
    rw [hserial] at hfound
    rw [hfound]
    exact ⟨_, .takeTransport⟩
  | takeBus => exact ⟨_, .takeBus⟩
  | giveBus => exact ⟨_, .giveBus⟩
  | giveTransport hfree => exact ⟨_, .giveTransport hfree⟩

/-! ### Going on -/

variable {engine bus : Handle}

/-- Whoever has a transport has not come to an end. -/
theorem next_of_engine (h : Sound initial plant stages)
    (hengine : (stages caller).engine? = some engine) :
    ∃ call next answer stage, plant.left caller = some (.ask call next) ∧
      (stages caller).Next ⟨call, answer⟩ stage := by
  have hinside : stages caller ≠ .outside := by
    intro houtside
    rw [houtside] at hengine
    cases hengine
  have hsuits := h.suits caller
  cases hleft : plant.left caller with
  | none =>
    rw [hleft] at hsuits
    exact absurd hsuits hinside
  | some left =>
    rw [hleft] at hsuits
    cases left with
    | done => exact absurd hsuits hinside
    | ask call next =>
      obtain ⟨⟨answer, stage, hnext⟩, -⟩ := hsuits
      exact ⟨call, next, answer, stage, rfl, hnext⟩

/-- Whoever has a bus waits for nothing. -/
theorem canGoOn_of_bus (h : Sound initial plant stages)
    (hbus : (stages caller).bus? = some bus) : plant.CanGoOn caller := by
  obtain ⟨engine, hengine⟩ := Stage.engine?_of_bus hbus
  obtain ⟨call, next, answer, stage, hleft, hnext⟩ := h.next_of_engine hengine
  -- while the bus is held nothing else is taken
  generalize stages caller = before at hnext hbus
  cases hnext with
  | aside haside => exact Plant.canGoOn_of_locks hleft haside.2
  | stroke hstroke => exact Plant.canGoOn_of_locks hleft (Call.locks_of_stroke hstroke)
  | giveBus => exact ⟨_, next, (), _, hleft, rfl⟩
  | giveTransport hfree =>
    rw [Stage.bus?_of_free hfree] at hbus
    cases hbus
  | takeTransport | takeBus => cases hbus

/-- Whoever has a transport waits at most for somebody who has a bus. -/
theorem goesOn_of_engine (h : Sound initial plant stages)
    (hengine : (stages caller).engine? = some engine) :
    ∃ caller', plant.Operating caller' ∧ plant.CanGoOn caller' := by
  have hoperating : ∀ {caller engine}, (stages caller).engine? = some engine →
      plant.Operating caller := fun hengine => .inl ⟨_, (h.users _ _).mpr hengine⟩
  obtain ⟨call, next, answer, stage, hleft, hnext⟩ := h.next_of_engine hengine
  generalize hstage : stages caller = before at hnext
  cases hnext with
  | @takeBus _ serial =>
    -- the only call that can have to wait: whoever has the bus goes on then
    cases hholder : plant.holder serial.bus with
    | none => exact ⟨caller, hoperating hengine, _, next, (), _, hleft, hholder, rfl⟩
    | some caller' =>
      have hbus : (stages caller').bus? = some serial.bus := (h.holders _ _).mp hholder
      obtain ⟨engine', hengine'⟩ := Stage.engine?_of_bus hbus
      exact ⟨caller', hoperating hengine', h.canGoOn_of_bus hbus⟩
  | aside haside =>
    exact ⟨caller, hoperating hengine, Plant.canGoOn_of_locks hleft haside.2⟩
  | stroke hstroke =>
    have hlocks := Call.locks_of_stroke hstroke
    exact ⟨caller, hoperating hengine, Plant.canGoOn_of_locks hleft hlocks⟩
  | takeTransport =>
    rw [hstage] at hengine
    cases hengine
  | giveBus => exact ⟨caller, hoperating hengine, _, next, (), _, hleft, rfl⟩
  | giveTransport => exact ⟨caller, hoperating hengine, _, next, (), _, hleft, rfl⟩

/-- As long as there is an operation, one of the operations can go on. -/
theorem goesOn (h : Sound initial plant stages) (hoperating : plant.Operating caller) :
    ∃ caller', plant.Operating caller' ∧ plant.CanGoOn caller' := by
  cases hoperating with
  | inl hinside =>
    obtain ⟨engine, huser⟩ := hinside
    exact h.goesOn_of_engine ((h.users engine caller).mp huser)
  | inr hwaiting =>
    obtain ⟨engine, next, hleft⟩ := hwaiting
    cases huser : plant.user engine with
    | none =>
      exact ⟨caller, .inr ⟨engine, next, hleft⟩, _, next, plant.transports engine, _, hleft,
        huser, rfl, rfl⟩
    | some caller' => exact h.goesOn_of_engine ((h.users engine caller').mp huser)

end Sound

variable {initial : Handle → Serial.Transport} {journal : Journal} {plant : Plant}
  {stages : Nat → Stage}

theorem Staged.sound (h : Staged initial journal plant stages) : Sound initial plant stages := by
  induction h with
  | start => exact .start
  | @begin _ _ stages caller _ h hidle horderly ih =>
    have hsuits := ih.suits caller
    rw [hidle] at hsuits
    have houtside : stages caller = .outside := hsuits
    apply ih.goOn
    rw [houtside]
    exact horderly
  | call h hleft hanswer hnext ih => exact ih.next hleft hanswer hnext
  | @finish _ _ _ caller h hleft ih =>
    have hsuits := ih.suits caller
    rw [hleft] at hsuits
    exact ih.goOn hsuits

/-- Whatever callers do, they are at stages. -/
theorem Sharing.staged (h : Sharing initial journal plant) :
    ∃ stages, Staged initial journal plant stages := by
  induction h with
  | start => exact ⟨_, .start⟩
  | begin h hidle horderly ih => exact ih.imp fun _ hstaged => .begin hstaged hidle horderly
  | call h hleft hanswer ih =>
    obtain ⟨stages, hstaged⟩ := ih
    obtain ⟨stage, hnext⟩ := hstaged.sound.next_of_answers hleft hanswer
    exact ⟨_, .call hstaged hleft hanswer hnext⟩
  | finish h hleft ih => exact ih.imp fun _ hstaged => .finish hstaged hleft

end ModbusMaster
