import Mathlib.Data.List.Nodup
import ModbusMaster.Proofs.Engine.Callers

/-!
What a journal of callers says about turns and about buses. The calls of one turn are strokes on
one line, in their order, between the calls that take and give back what the turn uses. The
strokes on the lines of one bus are those of one turn after the other.
-/

namespace ModbusMaster

namespace Action

/-- What a history does to lines. -/
def strokes (history : List Step) : List (Handle × Stroke) :=
  history.filterMap (·.call.stroke?)

/-- The calls for buses and transports in a history. -/
def locks (history : List Step) : List Call :=
  (history.map (·.call)).filter Call.locks

variable {history : List Step} {step : Step}

theorem strokes_snoc_of_none (h : step.call.stroke? = none) :
    strokes (history ++ [step]) = strokes history := by
  simp [strokes, h]

theorem strokes_snoc {stroke : Handle × Stroke} (h : step.call.stroke? = some stroke) :
    strokes (history ++ [step]) = strokes history ++ [stroke] := by
  simp [strokes, h]

theorem locks_snoc :
    locks (history ++ [step]) = locks history ++ [step.call].filter Call.locks := by
  simp [locks]

theorem locks_snoc_of_false (h : step.call.locks = false) :
    locks (history ++ [step]) = locks history := by
  simp [locks, h]

end Action

/-! ### Turns -/

/-- All strokes of an exchange on a line. -/
def Stroke.orderOn (line : Handle) : List (Handle × Stroke) :=
  Stroke.order.map (Prod.mk line)

/-- What the calls of a turn are like that has ended. -/
structure Ended (engine : Handle) (serial : Serial.Transport) (history : List Action.Step) :
    Prop where
  strokes : Action.strokes history <+: Stroke.orderOn serial.line
  /-- What was taken was given back, if the bus was taken at all. -/
  locks : ∃ transport,
    Action.locks history = [.acquireTransport engine, .releaseTransport engine transport] ∨
      Action.locks history = [.acquireTransport engine, .acquireBus serial.bus,
        .releaseBus serial.bus, .releaseTransport engine transport]

namespace Stage

/-- What the calls of a turn are like up to a stage. -/
def Fits : Stage → List Action.Step → Prop
  | outside, history => Action.strokes history = [] ∧ Action.locks history = []
  | inside engine _ .untouched, history =>
      Action.strokes history = [] ∧ Action.locks history = [.acquireTransport engine]
  | inside engine serial (.held left), history =>
      Action.strokes history ++ left.map (Prod.mk serial.line) = Stroke.orderOn serial.line ∧
        Action.locks history = [.acquireTransport engine, .acquireBus serial.bus]
  | inside engine serial .returned, history =>
      Action.strokes history <+: Stroke.orderOn serial.line ∧
        Action.locks history =
          [.acquireTransport engine, .acquireBus serial.bus, .releaseBus serial.bus]

variable {stage after : Stage} {history history' : List Action.Step} {step : Action.Step}

/-- Only strokes and locks count. -/
theorem Fits.of_eq (h : stage.Fits history)
    (hstrokes : Action.strokes history' = Action.strokes history)
    (hlocks : Action.locks history' = Action.locks history) : stage.Fits history' := by
  cases stage with
  | outside => exact ⟨hstrokes.trans h.1, hlocks.trans h.2⟩
  | inside engine serial use =>
    cases use with
    | untouched => exact ⟨hstrokes.trans h.1, hlocks.trans h.2⟩
    | held left =>
      refine ⟨?_, hlocks.trans h.2⟩
      rw [hstrokes]
      exact h.1
    | returned =>
      refine ⟨?_, hlocks.trans h.2⟩
      rw [hstrokes]
      exact h.1

/-- A turn goes on. -/
theorem Fits.next (h : stage.Fits history) (hnext : stage.Next step after)
    (hends : ¬ step.call.EndsTurn) : after.Fits (history ++ [step]) := by
  cases hnext with
  | aside haside =>
    exact h.of_eq (Action.strokes_snoc_of_none haside.1) (Action.locks_snoc_of_false haside.2)
  | takeTransport =>
    obtain ⟨hstrokes, hlocks⟩ := h
    refine ⟨(Action.strokes_snoc_of_none rfl).trans hstrokes, ?_⟩
    rw [Action.locks_snoc, hlocks]
    rfl
  | takeBus =>
    obtain ⟨hstrokes, hlocks⟩ := h
    constructor
    · rw [Action.strokes_snoc_of_none rfl, hstrokes]
      rfl
    · rw [Action.locks_snoc, hlocks]
      rfl
  | stroke hstroke =>
    obtain ⟨hstrokes, hlocks⟩ := h
    constructor
    · rw [Action.strokes_snoc hstroke, List.append_assoc]
      exact hstrokes
    · rw [Action.locks_snoc_of_false (Call.locks_of_stroke hstroke)]
      exact hlocks
  | giveBus =>
    obtain ⟨hstrokes, hlocks⟩ := h
    constructor
    · rw [Action.strokes_snoc_of_none rfl]
      exact ⟨_, hstrokes⟩
    · rw [Action.locks_snoc, hlocks]
      rfl
  | giveTransport => exact absurd trivial hends

/-- A turn ends. -/
theorem Fits.ended {engine : Handle} {serial : Serial.Transport} {use : BusUse}
    {transport : Transport} (h : (inside engine serial use).Fits history) (hfree : use.Free) :
    Ended engine serial (history ++ [⟨.releaseTransport engine transport, ()⟩]) := by
  cases use with
  | untouched =>
    obtain ⟨hstrokes, hlocks⟩ := h
    refine ⟨?_, transport, .inl ?_⟩
    · rw [Action.strokes_snoc_of_none rfl, hstrokes]
      exact ⟨_, rfl⟩
    · rw [Action.locks_snoc, hlocks]
      rfl
  | held left => exact hfree.elim
  | returned =>
    obtain ⟨hstrokes, hlocks⟩ := h
    refine ⟨?_, transport, .inr ?_⟩
    · rw [Action.strokes_snoc_of_none rfl]
      exact hstrokes
    · rw [Action.locks_snoc, hlocks]
      rfl

/-- Strokes go to the line of the transport, in their order. -/
theorem Fits.strokes {engine : Handle} {serial : Serial.Transport} {use : BusUse}
    (h : (inside engine serial use).Fits history) :
    Action.strokes history <+: Stroke.orderOn serial.line := by
  cases use with
  | untouched =>
    rw [h.1]
    exact ⟨_, rfl⟩
  | held left => exact ⟨_, h.1⟩
  | returned => exact h.1

end Stage

namespace Journal

/-- The calls of a turn. -/
def of (journal : Journal) (turn : Turn) : List Action.Step :=
  (journal.filter (·.1 = turn)).map (·.2)

/-- The strokes of a turn. -/
def strokesOf (journal : Journal) (turn : Turn) : Journal :=
  ((journal.of turn).filter (·.call.stroke?.isSome)).map (Prod.mk turn)

/-- What is seen on the lines that hang on a bus. -/
def traffic (journal : Journal) (busOf : Handle → Handle) (bus : Handle) : Journal :=
  journal.filter fun entry => entry.2.call.stroke?.map (busOf ·.1) = some bus

/-- The turns in which something was taken, in this order. -/
def takings (journal : Journal) (taken? : Call → Option Handle) (handle : Handle) : List Turn :=
  (journal.filter fun entry => taken? entry.2.call = some handle).map (·.1)

variable {journal : Journal} {turn turn' : Turn} {step : Action.Step} {busOf : Handle → Handle}
  {bus handle : Handle} {taken? : Call → Option Handle}

theorem of_snoc : of (journal ++ [(turn, step)]) turn = of journal turn ++ [step] := by
  simp [of]

theorem of_snoc_of_ne (h : turn' ≠ turn) :
    of (journal ++ [(turn, step)]) turn' = of journal turn' := by
  simp [of, h.symm]

theorem strokesOf_snoc_of_ne (h : turn' ≠ turn) :
    strokesOf (journal ++ [(turn, step)]) turn' = strokesOf journal turn' := by
  simp [strokesOf, of_snoc_of_ne h]

theorem strokesOf_snoc_of_none (h : step.call.stroke? = none) :
    strokesOf (journal ++ [(turn, step)]) turn' = strokesOf journal turn' := by
  by_cases hturn : turn' = turn
  · simp [strokesOf, hturn, of_snoc, h]
  · exact strokesOf_snoc_of_ne hturn

theorem strokesOf_snoc {stroke : Handle × Stroke} (h : step.call.stroke? = some stroke) :
    strokesOf (journal ++ [(turn, step)]) turn = strokesOf journal turn ++ [(turn, step)] := by
  simp [strokesOf, of_snoc, h]

theorem strokesOf_eq_nil (h : Action.strokes (journal.of turn) = []) :
    journal.strokesOf turn = [] := by
  have hnone := List.filterMap_eq_nil_iff.mp h
  simp only [strokesOf, List.map_eq_nil_iff, List.filter_eq_nil_iff]
  intro step hstep
  simp [hnone step hstep]

theorem traffic_snoc_of_ne (h : step.call.stroke?.map (busOf ·.1) ≠ some bus) :
    traffic (journal ++ [(turn, step)]) busOf bus = traffic journal busOf bus := by
  simp [traffic, h]

theorem traffic_snoc (h : step.call.stroke?.map (busOf ·.1) = some bus) :
    traffic (journal ++ [(turn, step)]) busOf bus =
      traffic journal busOf bus ++ [(turn, step)] := by
  simp [traffic, h]

theorem takings_snoc (h : taken? step.call = some handle) :
    takings (journal ++ [(turn, step)]) taken? handle =
      takings journal taken? handle ++ [turn] := by
  simp [takings, h]

theorem takings_snoc_of_ne (h : taken? step.call ≠ some handle) :
    takings (journal ++ [(turn, step)]) taken? handle = takings journal taken? handle := by
  simp [takings, h]

theorem exists_of_mem_takings (h : turn ∈ journal.takings taken? handle) :
    ∃ step ∈ journal.of turn, taken? step.call = some handle := by
  simp only [takings, List.mem_map, List.mem_filter, decide_eq_true_eq] at h
  obtain ⟨⟨turn, step⟩, ⟨hmem, htaken⟩, rfl⟩ := h
  refine ⟨step, ?_, htaken⟩
  simp only [of, List.mem_map, List.mem_filter, decide_eq_true_eq]
  exact ⟨(turn, step), ⟨hmem, rfl⟩, rfl⟩

end Journal

/-! ### What is written down -/

/-- How a journal and the stages of the callers belong together. -/
structure Recorded (initial : Handle → Serial.Transport) (journal : Journal) (plant : Plant)
    (stages : Nat → Stage) : Prop where
  current : ∀ caller, (stages caller).Fits (journal.of (plant.turn caller))
  past : ∀ turn : Turn, turn.index < plant.turns turn.caller →
    ∃ engine, Ended engine (initial engine) (journal.of turn)
  future : ∀ turn : Turn, plant.turns turn.caller < turn.index → journal.of turn = []

variable {initial : Handle → Serial.Transport} {journal : Journal} {plant after : Plant}
  {stages : Nat → Stage} {stage : Stage} {caller caller' : Nat} {call : Call}
  {answer : call.Answer}

theorem Plant.turn_ne (h : caller' ≠ caller) {plant plant' : Plant} :
    plant'.turn caller' ≠ plant.turn caller :=
  fun heq => h (congrArg Turn.caller heq)

/-- A turn that is over, or has not come yet, is not the one that a caller is in. -/
theorem Plant.ne_turn {turn : Turn} (h : turn.index ≠ plant.turns turn.caller) :
    turn ≠ plant.turn caller := by
  intro heq
  apply h
  rw [heq]
  rfl

theorem Plant.turn_congr (h : after.turns = plant.turns) :
    after.turn caller = plant.turn caller := by
  rw [turn, h]
  rfl

/-- Turns are counted when they end. -/
theorem Plant.Answers.turns_eq (h : plant.Answers caller ⟨call, answer⟩ after)
    (hends : ¬ call.EndsTurn) : after.turns = plant.turns := by
  cases call with
  | acquireBus =>
    obtain ⟨-, rfl⟩ := h
    rfl
  | acquireTransport =>
    obtain ⟨-, -, rfl⟩ := h
    rfl
  | releaseBus =>
    cases h
    rfl
  | releaseTransport => exact absurd trivial hends
  | _ => exact congrArg turns h

/-- The transport that a caller has is the engine's own. -/
theorem Sound.ended {engine : Handle} {serial : Serial.Transport} {use : BusUse}
    {history : List Action.Step} (h : Sound initial plant stages)
    (hstage : stages caller = .inside engine serial use) (hended : Ended engine serial history) :
    Ended engine (initial engine) history := by
  obtain ⟨health, hserial⟩ := h.serial engine
  rw [h.found hstage] at hserial
  cases hserial
  exact ⟨hended.strokes, hended.locks⟩

namespace Recorded

/-- A call within a turn, or outside of any. -/
theorem next (h : Recorded initial journal plant stages)
    (hnext : (stages caller).Next ⟨call, answer⟩ stage) (hends : ¬ call.EndsTurn)
    (hturns : after.turns = plant.turns) :
    Recorded initial (journal ++ [(plant.turn caller, ⟨call, answer⟩)]) after
      (Function.update stages caller stage) := by
  have hturn : ∀ caller, after.turn caller = plant.turn caller := fun _ => Plant.turn_congr hturns
  constructor
  case current =>
    intro caller'
    rw [hturn]
    by_cases hcaller : caller' = caller
    · rw [hcaller, Function.update_self, Journal.of_snoc]
      exact (h.current caller).next hnext hends
    · rw [Function.update_of_ne hcaller, Journal.of_snoc_of_ne (Plant.turn_ne hcaller)]
      exact h.current caller'
  case past =>
    intro turn hturn
    rw [hturns] at hturn
    rw [Journal.of_snoc_of_ne (Plant.ne_turn (Nat.ne_of_lt hturn))]
    exact h.past turn hturn
  case future =>
    intro turn hturn
    rw [hturns] at hturn
    rw [Journal.of_snoc_of_ne (Plant.ne_turn (Nat.ne_of_gt hturn))]
    exact h.future turn hturn

/-- The last call of a turn. -/
theorem ends (h : Recorded initial journal plant stages)
    (hended : ∃ engine, Ended engine (initial engine)
      (journal.of (plant.turn caller) ++ [⟨call, answer⟩]))
    (hturns : after.turns = Function.update plant.turns caller (plant.turns caller + 1)) :
    Recorded initial (journal ++ [(plant.turn caller, ⟨call, answer⟩)]) after
      (Function.update stages caller .outside) := by
  have hself : after.turns caller = plant.turns caller + 1 := by
    rw [hturns, Function.update_self]
  have hother : ∀ {caller'}, caller' ≠ caller → after.turns caller' = plant.turns caller' := by
    intro caller' hcaller
    rw [hturns, Function.update_of_ne hcaller]
  constructor
  case current =>
    intro caller'
    by_cases hcaller : caller' = caller
    · -- the caller's next turn is a new one, of which nothing is written down
      have hne : after.turn caller ≠ plant.turn caller := by
        intro heq
        have hindex : after.turns caller = plant.turns caller := congrArg Turn.index heq
        omega
      have hnil : journal.of (after.turn caller) = [] := by
        apply h.future
        show plant.turns caller < after.turns caller
        omega
      rw [hcaller, Function.update_self, Journal.of_snoc_of_ne hne, hnil]
      exact ⟨rfl, rfl⟩
    · have hturn : after.turn caller' = plant.turn caller' := by
        rw [Plant.turn, hother hcaller]
        rfl
      rw [Function.update_of_ne hcaller, Journal.of_snoc_of_ne (Plant.turn_ne hcaller), hturn]
      exact h.current caller'
  case past =>
    intro turn hturn
    by_cases hsame : turn = plant.turn caller
    · rw [hsame, Journal.of_snoc]
      exact hended
    · rw [Journal.of_snoc_of_ne hsame]
      apply h.past
      by_cases hcaller : turn.caller = caller
      · rw [hcaller, hself] at hturn
        have hindex : turn.index ≠ plant.turns caller :=
          fun heq => hsame (Turn.ext hcaller heq)
        rw [hcaller]
        omega
      · rw [hother hcaller] at hturn
        exact hturn
  case future =>
    intro turn hturn
    have hlater : plant.turns turn.caller < turn.index := by
      by_cases hcaller : turn.caller = caller
      · rw [hcaller, hself] at hturn
        rw [hcaller]
        omega
      · rw [hother hcaller] at hturn
        exact hturn
    rw [Journal.of_snoc_of_ne (Plant.ne_turn (Nat.ne_of_gt hlater))]
    exact h.future turn hlater

end Recorded

theorem Staged.recorded (h : Staged initial journal plant stages) :
    Recorded initial journal plant stages := by
  induction h with
  | start =>
    constructor
    · exact fun caller => ⟨rfl, rfl⟩
    · exact fun turn hturn => absurd hturn (Nat.not_lt_zero _)
    · exact fun turn hturn => rfl
  | begin h hidle horderly ih => exact ⟨ih.current, ih.past, ih.future⟩
  | finish h hleft ih => exact ⟨ih.current, ih.past, ih.future⟩
  | @call journal plant after stages stage caller call next answer h hleft hanswer hnext ih =>
    by_cases hends : call.EndsTurn
    · generalize hstage : stages caller = before at hnext
      cases hnext with
      | giveTransport hfree =>
        cases hanswer
        have hfits := ih.current caller
        rw [hstage] at hfits
        exact ih.ends ⟨_, h.sound.ended hstage (hfits.ended hfree)⟩ rfl
      | aside haside => exact absurd haside (Call.not_aside_of_locks hends.locks)
      | stroke hstroke =>
        exact absurd hends.locks (by rw [Call.locks_of_stroke hstroke]; exact Bool.false_ne_true)
      | _ => exact hends.elim
    · have hnext' := ih.next hnext hends (hanswer.turns_eq hends)
      exact ⟨hnext'.current, hnext'.past, hnext'.future⟩

/-! ### Buses -/

/-- The bus was taken in one turn after the other, and what was seen on its lines are the strokes
of these turns, one turn after the other. -/
structure InTurns (busOf : Handle → Handle) (bus : Handle) (journal : Journal) (plant : Plant)
    (stages : Nat → Stage) : Prop where
  nodup : (journal.takings Call.bus? bus).Nodup
  last : ∀ caller, (stages caller).bus? = some bus →
    ∃ earlier, journal.takings Call.bus? bus = earlier ++ [plant.turn caller]
  traffic : journal.traffic busOf bus = (journal.takings Call.bus? bus).flatMap journal.strokesOf

/-- Where a bus was taken is written down among the locks. -/
theorem Journal.locks_of_takings {turn : Turn} {bus : Handle}
    (h : turn ∈ journal.takings Call.bus? bus) :
    Call.acquireBus bus ∈ Action.locks (journal.of turn) := by
  obtain ⟨step, hstep, hbus⟩ := Journal.exists_of_mem_takings h
  have hcall : step.call = .acquireBus bus := by
    cases hcall : step.call with
    | acquireBus bus' =>
      rw [hcall] at hbus
      exact congrArg Call.acquireBus (Option.some.inj hbus)
    | _ =>
      rw [hcall] at hbus
      cases hbus
  apply List.mem_filter.mpr
  exact ⟨List.mem_map.mpr ⟨step, hstep, hcall⟩, rfl⟩

/-- Turns are counted for their callers only. -/
theorem Plant.Answers.turn_of_ne (h : plant.Answers caller ⟨call, answer⟩ after)
    (hcaller : caller' ≠ caller) : after.turn caller' = plant.turn caller' := by
  by_cases hends : call.EndsTurn
  · cases call with
    | releaseTransport =>
      cases h
      exact congrArg (Turn.mk caller') (Function.update_of_ne hcaller _ _)
    | _ => exact hends.elim
  · exact turn_congr (h.turns_eq hends)

namespace InTurns

variable {busOf : Handle → Handle} {bus : Handle}

/-- Neither a stroke, nor is the bus taken. -/
theorem quiet (h : InTurns busOf bus journal plant stages)
    (hanswer : plant.Answers caller ⟨call, answer⟩ after) (hstroke : call.stroke? = none)
    (hbus : call.bus? ≠ some bus)
    (hcaller : stage.bus? = some bus →
      (stages caller).bus? = some bus ∧ after.turn caller = plant.turn caller) :
    InTurns busOf bus (journal ++ [(plant.turn caller, ⟨call, answer⟩)]) after
      (Function.update stages caller stage) := by
  have htraffic : call.stroke?.map (busOf ·.1) ≠ some bus := by
    rw [hstroke]
    exact fun heq => by cases heq
  constructor
  case nodup =>
    rw [Journal.takings_snoc_of_ne hbus]
    exact h.nodup
  case last =>
    intro caller' hbus'
    rw [Journal.takings_snoc_of_ne hbus]
    by_cases hsame : caller' = caller
    · rw [hsame, Function.update_self] at hbus'
      obtain ⟨hbefore, hturn⟩ := hcaller hbus'
      rw [hsame, hturn]
      exact h.last caller hbefore
    · rw [Function.update_of_ne hsame] at hbus'
      rw [hanswer.turn_of_ne hsame]
      exact h.last caller' hbus'
  case traffic =>
    rw [Journal.takings_snoc_of_ne hbus, Journal.traffic_snoc_of_ne htraffic, h.traffic]
    exact List.flatMap_congr fun turn _ => (Journal.strokesOf_snoc_of_none hstroke).symm

/-- The bus is taken. -/
theorem taken {answer : (Call.acquireBus bus).Answer} (h : InTurns busOf bus journal plant stages)
    (hturn : after.turn caller = plant.turn caller)
    (hstrokes : Action.strokes (journal.of (plant.turn caller)) = [])
    (hnew : plant.turn caller ∉ journal.takings Call.bus? bus)
    (hfree : ∀ caller, (stages caller).bus? ≠ some bus) :
    InTurns busOf bus (journal ++ [(plant.turn caller, ⟨.acquireBus bus, answer⟩)]) after
      (Function.update stages caller stage) := by
  have htakings : Journal.takings (journal ++ [(plant.turn caller, ⟨.acquireBus bus, answer⟩)])
      Call.bus? bus = journal.takings Call.bus? bus ++ [plant.turn caller] :=
    Journal.takings_snoc rfl
  constructor
  case nodup =>
    rw [htakings]
    rw [← List.concat_eq_append]
    exact h.nodup.concat hnew
  case last =>
    intro caller' hbus
    rw [htakings]
    by_cases hsame : caller' = caller
    · rw [hsame, hturn]
      exact ⟨_, rfl⟩
    · rw [Function.update_of_ne hsame] at hbus
      exact absurd hbus (hfree caller')
  case traffic =>
    have hnone : ∀ turn, Journal.strokesOf
        (journal ++ [(plant.turn caller, ⟨.acquireBus bus, answer⟩)]) turn =
          journal.strokesOf turn := fun turn => Journal.strokesOf_snoc_of_none rfl
    rw [htakings, Journal.traffic_snoc_of_ne (fun heq => by cases heq), h.traffic,
      List.flatMap_append, List.flatMap_singleton, hnone, Journal.strokesOf_eq_nil hstrokes,
      List.append_nil]
    exact List.flatMap_congr fun turn _ => (hnone turn).symm

/-- A stroke on a line of the bus, or on one of another bus. -/
theorem stroke {stroke : Handle × Stroke} (h : InTurns busOf bus journal plant stages)
    (hstroke : call.stroke? = some stroke)
    (hturn : ∀ caller, after.turn caller = plant.turn caller)
    (hstages : ∀ caller',
      (Function.update stages caller stage caller').bus? = (stages caller').bus?)
    (hon : busOf stroke.1 = bus → (stages caller).bus? = some bus)
    (hoff : busOf stroke.1 ≠ bus → plant.turn caller ∉ journal.takings Call.bus? bus) :
    InTurns busOf bus (journal ++ [(plant.turn caller, ⟨call, answer⟩)]) after
      (Function.update stages caller stage) := by
  have htakings : Journal.takings (journal ++ [(plant.turn caller, ⟨call, answer⟩)])
      Call.bus? bus = journal.takings Call.bus? bus := by
    apply Journal.takings_snoc_of_ne
    cases call with
    | acquireBus => cases hstroke
    | _ => exact fun heq => by cases heq
  have hother : ∀ turns : List Turn, plant.turn caller ∉ turns →
      turns.flatMap (Journal.strokesOf (journal ++ [(plant.turn caller, ⟨call, answer⟩)])) =
        turns.flatMap journal.strokesOf := by
    intro turns hnew
    apply List.flatMap_congr
    intro turn hmem
    have hne : turn ≠ plant.turn caller := by
      intro heq
      rw [heq] at hmem
      exact hnew hmem
    exact Journal.strokesOf_snoc_of_ne hne
  have hmap : call.stroke?.map (busOf ·.1) = some (busOf stroke.1) := by rw [hstroke]; rfl
  constructor
  case nodup =>
    rw [htakings]
    exact h.nodup
  case last =>
    intro caller' hbus
    rw [hstages] at hbus
    rw [htakings, hturn]
    exact h.last caller' hbus
  case traffic =>
    rw [htakings]
    by_cases hbus : busOf stroke.1 = bus
    · rw [hbus] at hmap
      obtain ⟨earlier, hlast⟩ := h.last caller (hon hbus)
      have hnew : plant.turn caller ∉ earlier := by
        have hnodup := h.nodup
        rw [hlast, ← List.concat_eq_append] at hnodup
        exact ((List.nodup_concat _ _).mp hnodup).1
      -- the stroke belongs to the turn that took the bus last
      rw [Journal.traffic_snoc hmap, h.traffic, hlast, List.flatMap_append, List.flatMap_append,
        List.flatMap_singleton, List.flatMap_singleton, hother earlier hnew,
        Journal.strokesOf_snoc hstroke, List.append_assoc]
    · have hne : call.stroke?.map (busOf ·.1) ≠ some bus := by
        rw [hmap]
        exact fun heq => hbus (Option.some.inj heq)
      rw [Journal.traffic_snoc_of_ne hne, h.traffic, hother _ (hoff hbus)]

end InTurns

theorem Staged.inTurns {busOf : Handle → Handle}
    (hwired : ∀ engine, busOf (initial engine).line = (initial engine).bus) (bus : Handle)
    (h : Staged initial journal plant stages) : InTurns busOf bus journal plant stages := by
  induction h with
  | start =>
    constructor
    · exact List.nodup_nil
    · exact fun caller hbus => by cases hbus
    · rfl
  | begin h hidle horderly ih => exact ⟨ih.nodup, ih.last, ih.traffic⟩
  | finish h hleft ih => exact ⟨ih.nodup, ih.last, ih.traffic⟩
  | @call journal plant after stages stage caller call next answer h hleft hanswer hnext ih =>
    have hfits := h.recorded.current caller
    have hsound := h.sound
    suffices hafter : InTurns busOf bus (journal ++ [(plant.turn caller, ⟨call, answer⟩)]) after
        (Function.update stages caller stage) from ⟨hafter.nodup, hafter.last, hafter.traffic⟩
    generalize hstage : stages caller = before at hnext
    rw [hstage] at hfits
    cases hnext with
    | aside haside =>
      have hsame := hanswer.eq haside.2
      have hbus : call.bus? ≠ some bus := by
        intro heq
        cases call with
        | acquireBus => exact Call.not_aside_of_locks rfl haside
        | _ => cases heq
      apply ih.quiet hanswer haside.1 hbus
      intro hheld
      rw [hstage, hsame]
      exact ⟨hheld, rfl⟩
    | takeTransport =>
      exact ih.quiet hanswer rfl (fun heq => by cases heq) fun hheld => by cases hheld
    | giveBus =>
      exact ih.quiet hanswer rfl (fun heq => by cases heq) fun hheld => by cases hheld
    | giveTransport =>
      exact ih.quiet hanswer rfl (fun heq => by cases heq) fun hheld => by cases hheld
    | @takeBus engine serial =>
      -- the turn has taken no bus before
      have hnew : plant.turn caller ∉ journal.takings Call.bus? bus := by
        intro hmem
        have hlock := Journal.locks_of_takings hmem
        rw [hfits.2] at hlock
        cases List.mem_singleton.mp hlock
      by_cases hbus : serial.bus = bus
      · subst hbus
        have hturn : after.turn caller = plant.turn caller := Plant.turn_congr (hanswer.turns_eq id)
        have hfree : ∀ caller', (stages caller').bus? ≠ some serial.bus := by
          intro caller' hheld
          have hholder := (hsound.holders _ caller').mpr hheld
          rw [hanswer.1] at hholder
          cases hholder
        exact ih.taken hturn hfits.1 hnew hfree
      · have hother : ∀ {place}, some serial.bus = place → place ≠ some bus := by
          intro place heq hplace
          exact hbus (Option.some.inj (heq.trans hplace))
        exact ih.quiet hanswer rfl (hother rfl) fun hheld => absurd hheld (hother rfl)
    | @stroke engine serial stroke left _ hstroke =>
      have hsame := hanswer.eq (Call.locks_of_stroke hstroke)
      obtain ⟨health, hserial⟩ := hsound.serial engine
      rw [hsound.found hstage] at hserial
      cases hserial
      apply ih.stroke hstroke
      · intro caller
        rw [hsame]
      · intro caller'
        by_cases hcaller : caller' = caller
        · rw [hcaller, Function.update_self, hstage]
          rfl
        · rw [Function.update_of_ne hcaller]
      · intro hbus
        rw [hstage]
        exact congrArg some ((hwired engine).symm.trans hbus)
      · intro hbus hmem
        have hlock := Journal.locks_of_takings hmem
        rw [hfits.2] at hlock
        cases List.mem_pair.mp hlock with
        | inl heq => cases heq
        | inr heq =>
          cases heq
          exact hbus (hwired engine)

end ModbusMaster
