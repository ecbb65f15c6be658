import ModbusMaster.Proofs.Engine.Strokes

/-!
Callers that share engines get the same as if they came one at a time. `Alone` lets whoever takes
a transport do all that is done with it before anybody else does anything; whatever callers do
together, they could have done so. The rest of what sharing guarantees is put together here.
-/

namespace ModbusMaster

/-- A call that neither takes a transport nor gives one back. -/
def Call.Within (call : Call) : Prop :=
  call.engine? = none ∧ ¬ call.EndsTurn

theorem Call.Aside.within {call : Call} (h : call.Aside) : call.Within := by
  cases call with
  | acquireTransport | releaseTransport => exact absurd h (not_aside_of_locks rfl)
  | _ => exact ⟨rfl, id⟩

theorem Call.within_of_stroke {call : Call} {stroke : Handle × Stroke}
    (h : call.stroke? = some stroke) : call.Within := by
  cases call with
  | acquireTransport | releaseTransport => cases h
  | _ => exact ⟨rfl, id⟩

/-- All that is done with a transport in one turn. -/
structure Stay where
  turn : Turn
  engine : Handle
  /-- The transport as it was found. -/
  found : Transport
  calls : List Action.Step
  /-- The transport as it was given back. -/
  left : Transport

/-- The calls of a turn from the taking of the transport on. -/
def Stay.steps (stay : Stay) : List Action.Step :=
  ⟨.acquireTransport stay.engine, stay.found⟩ :: stay.calls ++
    [⟨.releaseTransport stay.engine stay.left, ()⟩]

/-- The turns with the transport of an engine. -/
def Stay.turnsWith (stays : List Stay) (engine : Handle) : List Turn :=
  (stays.filter (·.engine = engine)).map (·.turn)

theorem Stay.turnsWith_snoc {stays : List Stay} {stay : Stay} :
    turnsWith (stays ++ [stay]) stay.engine = turnsWith stays stay.engine ++ [stay.turn] := by
  simp [turnsWith]

theorem Stay.turnsWith_snoc_of_ne {stays : List Stay} {stay : Stay} {engine : Handle}
    (h : engine ≠ stay.engine) : turnsWith (stays ++ [stay]) engine = turnsWith stays engine := by
  simp [turnsWith, h.symm]

/-- A caller gives a transport back and goes on. -/
def Plant.giveBack (plant : Plant) (caller : Nat) (engine : Handle) (transport : Transport)
    (left : Action Unit) : Plant :=
  Plant.goOn { plant with
    transports := Function.update plant.transports engine transport
    turns := Function.update plant.turns caller (plant.turns caller + 1) } caller (some left)

/-- What callers can have done if everybody uses a transport alone, from the taking to the giving
back. There is nothing to lock then. -/
inductive Alone (initial : Handle → Serial.Transport) : List Stay → Plant → Prop where
  | start : Alone initial [] (.start initial)
  | begin {stays : List Stay} {plant : Plant} {caller : Nat} {errand : Action Unit}
      (h : Alone initial stays plant) (hidle : plant.left caller = none)
      (horderly : errand.Orderly) : Alone initial stays (plant.goOn caller (some errand))
  | aside {stays : List Stay} {plant : Plant} {caller : Nat} {call : Call}
      {next : call.Answer → Action Unit} (h : Alone initial stays plant)
      (hleft : plant.left caller = some (.ask call next)) (haside : call.Aside)
      (answer : call.Answer) : Alone initial stays (plant.goOn caller (some (next answer)))
  | stay {stays : List Stay} {plant : Plant} {caller : Nat} {engine : Handle}
      {next : Transport → Action Unit} {calls : List Action.Step} {transport : Transport}
      {rest : Unit → Action Unit} (h : Alone initial stays plant)
      (hleft : plant.left caller = some (.ask (.acquireTransport engine) next))
      (hwithin : ∀ step ∈ calls, step.call.Within)
      (hleaves : (next (plant.transports engine)).Leaves calls
        (.ask (.releaseTransport engine transport) rest)) :
      Alone initial
        (stays ++ [⟨plant.turn caller, engine, plant.transports engine, calls, transport⟩])
        (plant.giveBack caller engine transport (rest ()))
  | finish {stays : List Stay} {plant : Plant} {caller : Nat} (h : Alone initial stays plant)
      (hleft : plant.left caller = some (.done ())) : Alone initial stays (plant.goOn caller none)

/-- A caller is in a turn that it has not begun yet where everybody is alone. -/
def Amid (journal : Journal) (apart plant : Plant) (caller : Nat) (engine : Handle) : Prop :=
  ∃ next own calls left,
    apart.left caller = some (.ask (.acquireTransport engine) next) ∧
    plant.left caller = some left ∧
    (next (plant.transports engine)).Leaves calls left ∧
    (∀ step ∈ calls, step.call.Within) ∧
    journal.of (plant.turn caller) =
      own ++ ⟨.acquireTransport engine, plant.transports engine⟩ :: calls

variable {initial : Handle → Serial.Transport} {journal : Journal} {stays : List Stay}
  {plant after apart : Plant} {stages : Nat → Stage} {stage : Stage} {caller caller' : Nat}
  {call : Call} {answer : call.Answer} {engine : Handle}

/-- Within a turn no transport changes hands. -/
theorem Plant.Answers.of_within (h : plant.Answers caller ⟨call, answer⟩ after)
    (hwithin : call.Within) :
    after.transports = plant.transports ∧ after.user = plant.user ∧ after.turns = plant.turns := by
  cases call with
  | acquireBus =>
    obtain ⟨-, rfl⟩ := h
    exact ⟨rfl, rfl, rfl⟩
  | releaseBus =>
    cases h
    exact ⟨rfl, rfl, rfl⟩
  | acquireTransport => cases hwithin.1
  | releaseTransport => exact absurd trivial hwithin.2
  | _ =>
    cases h
    exact ⟨rfl, rfl, rfl⟩

/-- What others do makes no difference to a turn. -/
theorem Amid.of_eq {journal' : Journal} {apart' plant' : Plant}
    (h : Amid journal apart plant caller engine)
    (hcalls : journal'.of (plant'.turn caller) = journal.of (plant.turn caller))
    (hapart : apart'.left caller = apart.left caller)
    (hleft : plant'.left caller = plant.left caller)
    (hfound : plant'.transports engine = plant.transports engine) :
    Amid journal' apart' plant' caller engine := by
  unfold Amid
  rw [hcalls, hapart, hleft, hfound]
  exact h

/-- Callers that share engines have come as far as callers who used them alone, except for the
turns that have not ended. -/
structure Apart (journal : Journal) (stays : List Stay) (apart plant : Plant)
    (stages : Nat → Stage) : Prop where
  transports : apart.transports = plant.transports
  turns : apart.turns = plant.turns
  outside : ∀ caller, stages caller = .outside → apart.left caller = plant.left caller
  inside : ∀ caller engine, (stages caller).engine? = some engine →
    Amid journal apart plant caller engine
  takings : ∀ engine, journal.takings Call.engine? engine =
    Stay.turnsWith stays engine ++ (plant.user engine).toList.map plant.turn
  past : ∀ stay ∈ stays, stay.turn.index < plant.turns stay.turn.caller
  steps : ∀ stay ∈ stays, stay.steps <:+ journal.of stay.turn

namespace Apart

theorem start : Apart [] [] (.start initial) (.start initial) fun _ => .outside where
  transports := rfl
  turns := rfl
  outside _ _ := rfl
  inside _ _ hinside := by cases hinside
  takings _ := rfl
  past _ hstay := absurd hstay List.not_mem_nil
  steps _ hstay := absurd hstay List.not_mem_nil

/-- The turn of a caller is not in the past. -/
theorem turn_ne (h : Apart journal stays apart plant stages) {stay : Stay} (hstay : stay ∈ stays) :
    stay.turn ≠ plant.turn caller :=
  Plant.ne_turn (Nat.ne_of_lt (h.past stay hstay))

theorem steps_snoc (h : Apart journal stays apart plant stages) {step : Action.Step} {stay : Stay}
    (hstay : stay ∈ stays) : stay.steps <:+ Journal.of (journal ++ [(plant.turn caller, step)])
      stay.turn := by
  rw [Journal.of_snoc_of_ne (h.turn_ne hstay)]
  exact h.steps stay hstay

/-- Outside of turns callers go on alike. -/
theorem goOn {left : Option (Action Unit)} (h : Apart journal stays apart plant stages)
    (houtside : stages caller = .outside) :
    Apart journal stays (apart.goOn caller left) (plant.goOn caller left) stages where
  transports := h.transports
  turns := h.turns
  outside caller' houtside' := by
    show Function.update apart.left caller left caller' =
      Function.update plant.left caller left caller'
    by_cases hcaller : caller' = caller
    · rw [hcaller, Function.update_self, Function.update_self]
    · rw [Function.update_of_ne hcaller, Function.update_of_ne hcaller]
      exact h.outside caller' houtside'
  inside caller' engine hinside := by
    have hcaller : caller' ≠ caller := by
      intro heq
      rw [heq, houtside] at hinside
      cases hinside
    exact (h.inside caller' engine hinside).of_eq rfl (Function.update_of_ne hcaller _ _)
      (Function.update_of_ne hcaller _ _) rfl
  takings := h.takings
  past := h.past
  steps := h.steps

/-- What a caller does outside of turns is written down. -/
theorem wrote (h : Apart journal stays apart plant stages) (houtside : stages caller = .outside)
    (hengine : call.engine? = none) :
    Apart (journal ++ [(plant.turn caller, ⟨call, answer⟩)]) stays apart plant stages where
  transports := h.transports
  turns := h.turns
  outside := h.outside
  inside caller' engine hinside := by
    have hcaller : caller' ≠ caller := by
      intro heq
      rw [heq, houtside] at hinside
      cases hinside
    exact (h.inside caller' engine hinside).of_eq
      (Journal.of_snoc_of_ne (Plant.turn_ne hcaller)) rfl rfl rfl
  takings engine := by
    have hne : call.engine? ≠ some engine := by
      rw [hengine]
      exact fun heq => by cases heq
    rw [Journal.takings_snoc_of_ne hne]
    exact h.takings engine
  past := h.past
  steps _ hstay := h.steps_snoc hstay

/-- A caller goes on within a turn. -/
theorem within {next : call.Answer → Action Unit} (h : Apart journal stays apart plant stages)
    (hleft : plant.left caller = some (.ask call next))
    (hanswer : plant.Answers caller ⟨call, answer⟩ after) (hwithin : call.Within)
    (hengine : (stages caller).engine? = some engine) (hstage : stage.engine? = some engine) :
    Apart (journal ++ [(plant.turn caller, ⟨call, answer⟩)]) stays apart
      (after.goOn caller (some (next answer))) (Function.update stages caller stage) := by
  obtain ⟨htransports, huser, hturns⟩ := hanswer.of_within hwithin
  have hturn : ∀ caller', (after.goOn caller (some (next answer))).turn caller' =
      plant.turn caller' := fun caller' => Plant.turn_congr hturns
  have hother : ∀ {caller'}, caller' ≠ caller →
      (after.goOn caller (some (next answer))).left caller' = plant.left caller' := by
    intro caller' hcaller
    rw [← hanswer.left_eq]
    exact Function.update_of_ne hcaller _ _
  constructor
  case transports => exact h.transports.trans htransports.symm
  case turns => exact h.turns.trans hturns.symm
  case outside =>
    intro caller' houtside
    by_cases hcaller : caller' = caller
    · rw [hcaller, Function.update_self] at houtside
      rw [houtside] at hstage
      cases hstage
    · rw [Function.update_of_ne hcaller] at houtside
      rw [hother hcaller]
      exact h.outside caller' houtside
  case inside =>
    intro caller' engine' hinside
    by_cases hcaller : caller' = caller
    · rw [hcaller, Function.update_self, hstage] at hinside
      cases hinside
      obtain ⟨first, own, calls, left, hapart, hplant, hleaves, hcalls, hof⟩ :=
        h.inside caller engine hengine
      rw [hleft] at hplant
      cases hplant
      refine ⟨first, own, calls ++ [⟨call, answer⟩], next answer, ?_, ?_, ?_, ?_, ?_⟩
      · rw [hcaller]
        exact hapart
      · rw [hcaller]
        exact Function.update_self _ _ _
      · show (first (after.transports engine)).Leaves _ _
        rw [htransports]
        exact hleaves.next answer
      · exact List.forall_mem_append.mpr ⟨hcalls, List.forall_mem_singleton.mpr hwithin⟩
      · show Journal.of _ _ = own ++
          ⟨.acquireTransport engine, after.transports engine⟩ :: (calls ++ [⟨call, answer⟩])
        rw [hcaller, hturn, Journal.of_snoc, hof, htransports, List.append_assoc]
        rfl
    · rw [Function.update_of_ne hcaller] at hinside
      apply (h.inside caller' engine' hinside).of_eq
      · rw [hturn, Journal.of_snoc_of_ne (Plant.turn_ne hcaller)]
      · rfl
      · exact hother hcaller
      · exact congrFun htransports engine'
  case takings =>
    intro engine'
    have hne : call.engine? ≠ some engine' := by
      rw [hwithin.1]
      exact fun heq => by cases heq
    rw [Journal.takings_snoc_of_ne hne, funext hturn]
    show _ = _ ++ (after.user engine').toList.map plant.turn
    rw [huser]
    exact h.takings engine'
  case past =>
    intro stay hstay
    show stay.turn.index < after.turns stay.turn.caller
    rw [hturns]
    exact h.past stay hstay
  case steps => exact fun stay hstay => h.steps_snoc hstay

/-- A caller takes a transport. -/
theorem taken {next : Transport → Action Unit} {serial : Serial.Transport}
    (h : Apart journal stays apart plant stages) (houtside : stages caller = .outside)
    (hleft : plant.left caller = some (.ask (.acquireTransport engine) next))
    (hfree : plant.user engine = none)
    (hafter : after =
      { plant with user := Function.update plant.user engine (some caller) }) :
    Apart (journal ++
        [(plant.turn caller, ⟨.acquireTransport engine, plant.transports engine⟩)]) stays apart
      (after.goOn caller (some (next (plant.transports engine))))
      (Function.update stages caller (.inside engine serial .untouched)) := by
  subst hafter
  constructor
  case transports => exact h.transports
  case turns => exact h.turns
  case outside =>
    intro caller' houtside'
    by_cases hcaller : caller' = caller
    · rw [hcaller, Function.update_self] at houtside'
      cases houtside'
    · rw [Function.update_of_ne hcaller] at houtside'
      exact (h.outside caller' houtside').trans (Function.update_of_ne hcaller _ _).symm
  case inside =>
    intro caller' engine' hinside
    by_cases hcaller : caller' = caller
    · rw [hcaller, Function.update_self] at hinside
      cases hinside
      rw [hcaller]
      refine ⟨next, journal.of (plant.turn caller), [], _, ?_, ?_, .start _, ?_, ?_⟩
      · exact (h.outside caller houtside).trans hleft
      · exact Function.update_self _ _ _
      · exact List.forall_mem_nil _
      · exact Journal.of_snoc
    · rw [Function.update_of_ne hcaller] at hinside
      exact (h.inside caller' engine' hinside).of_eq
        (Journal.of_snoc_of_ne (Plant.turn_ne hcaller)) rfl (Function.update_of_ne hcaller _ _) rfl
  case takings =>
    intro engine'
    by_cases hengine : engine' = engine
    · have htakings := h.takings engine
      rw [hfree] at htakings
      rw [hengine, Journal.takings_snoc rfl, htakings]
      show _ = _ ++ (Function.update plant.user engine (some caller) engine).toList.map _
      rw [Function.update_self, List.append_assoc]
      rfl
    · have hne : Call.engine? (.acquireTransport engine) ≠ some engine' :=
        fun heq => hengine (Option.some.inj heq).symm
      rw [Journal.takings_snoc_of_ne hne]
      show _ = _ ++ (Function.update plant.user engine (some caller) engine').toList.map _
      rw [Function.update_of_ne hengine]
      exact h.takings engine'
  case past => exact h.past
  case steps => exact fun stay hstay => h.steps_snoc hstay

/-- When the transport is given back, the turn takes place where everybody is alone. -/
theorem closes {rest : Unit → Action Unit} {transport : Transport}
    (h : Apart journal stays apart plant stages) (halone : Alone initial stays apart)
    (hengine : (stages caller).engine? = some engine)
    (hleft : plant.left caller = some (.ask (.releaseTransport engine transport) rest)) :
    ∃ stay : Stay, stay.turn = plant.turn caller ∧ stay.engine = engine ∧
      stay.steps <:+ journal.of (plant.turn caller) ++ [⟨.releaseTransport engine transport, ()⟩] ∧
      Alone initial (stays ++ [stay]) (apart.giveBack caller engine transport (rest ())) := by
  obtain ⟨next, own, calls, left, hapart, hplant, hleaves, hcalls, hof⟩ :=
    h.inside caller engine hengine
  rw [hleft] at hplant
  cases hplant
  rw [← h.transports] at hleaves
  refine ⟨_, Plant.turn_congr h.turns, rfl, ?_, halone.stay hapart hcalls hleaves⟩
  rw [hof, h.transports, List.append_assoc]
  exact ⟨own, rfl⟩

/-- A caller gives a transport back. -/
theorem given {rest : Unit → Action Unit} {transport : Transport} {stay : Stay}
    (h : Apart journal stays apart plant stages) (hsound : Sound initial plant stages)
    (hengine : (stages caller).engine? = some stay.engine)
    (hanswer : plant.Answers caller ⟨.releaseTransport stay.engine transport, ()⟩ after)
    (hturn : stay.turn = plant.turn caller)
    (hsteps : stay.steps <:+
      journal.of (plant.turn caller) ++ [⟨.releaseTransport stay.engine transport, ()⟩]) :
    Apart (journal ++ [(plant.turn caller, ⟨.releaseTransport stay.engine transport, ()⟩)])
      (stays ++ [stay]) (apart.giveBack caller stay.engine transport (rest ()))
      (after.goOn caller (some (rest ()))) (Function.update stages caller .outside) := by
  have hturns : after.turns = Function.update plant.turns caller (plant.turns caller + 1) := by
    rw [show after = _ from hanswer]
  have huser : after.user = Function.update plant.user stay.engine none := by
    rw [show after = _ from hanswer]
  have htransports :
      after.transports = Function.update plant.transports stay.engine transport := by
    rw [show after = _ from hanswer]
  have hself : plant.user stay.engine = some caller := (hsound.users _ caller).mpr hengine
  -- whoever else has a transport has that of another engine
  have hothers : ∀ {caller' engine'}, caller' ≠ caller →
      (stages caller').engine? = some engine' → engine' ≠ stay.engine := by
    intro caller' engine' hcaller hinside heq
    rw [heq] at hinside
    exact hcaller (hsound.caller_unique hengine hinside)
  constructor
  case transports =>
    show Function.update apart.transports stay.engine transport = after.transports
    rw [htransports, h.transports]
  case turns =>
    show Function.update apart.turns caller (apart.turns caller + 1) = after.turns
    rw [hturns, h.turns]
  case outside =>
    intro caller' houtside
    show Function.update apart.left caller _ caller' = Function.update after.left caller _ caller'
    by_cases hcaller : caller' = caller
    · rw [hcaller, Function.update_self, Function.update_self]
    · rw [Function.update_of_ne hcaller] at houtside
      rw [Function.update_of_ne hcaller, Function.update_of_ne hcaller, hanswer.left_eq]
      exact h.outside caller' houtside
  case inside =>
    intro caller' engine' hinside
    by_cases hcaller : caller' = caller
    · rw [hcaller, Function.update_self] at hinside
      cases hinside
    · rw [Function.update_of_ne hcaller] at hinside
      have hsame := hanswer.turn_of_ne hcaller
      apply (h.inside caller' engine' hinside).of_eq
      · show Journal.of _ (after.turn caller') = _
        rw [hsame, Journal.of_snoc_of_ne (Plant.turn_ne hcaller)]
      · exact Function.update_of_ne hcaller _ _
      · rw [← hanswer.left_eq]
        exact Function.update_of_ne hcaller _ _
      · show after.transports engine' = _
        rw [htransports, Function.update_of_ne (hothers hcaller hinside)]
  case takings =>
    intro engine'
    rw [Journal.takings_snoc_of_ne (fun heq => by cases heq), h.takings engine']
    show _ = _ ++ (after.user engine').toList.map after.turn
    rw [huser]
    by_cases hother : engine' = stay.engine
    · rw [hother, hself, Function.update_self, Stay.turnsWith_snoc, hturn]
      exact (List.append_nil _).symm
    · rw [Function.update_of_ne hother, Stay.turnsWith_snoc_of_ne hother]
      cases huser' : plant.user engine' with
      | none => rfl
      | some caller' =>
        have hcaller : caller' ≠ caller := by
          intro heq
          rw [heq, hsound.users] at huser'
          exact hother (Option.some.inj (huser'.symm.trans hengine))
        show _ ++ [plant.turn caller'] = _ ++ [after.turn caller']
        rw [hanswer.turn_of_ne hcaller]
  case past =>
    intro stay' hstay'
    show stay'.turn.index < after.turns stay'.turn.caller
    rw [hturns]
    cases List.mem_append.mp hstay' with
    | inl hpast =>
      have hindex := h.past stay' hpast
      by_cases hcaller : stay'.turn.caller = caller
      · rw [hcaller] at hindex
        rw [hcaller, Function.update_self]
        exact Nat.lt_succ_of_lt hindex
      · rw [Function.update_of_ne hcaller]
        exact hindex
    | inr hnew =>
      rw [List.mem_singleton.mp hnew, hturn]
      show plant.turns caller < Function.update plant.turns caller _ caller
      rw [Function.update_self]
      exact Nat.lt_succ_self _
  case steps =>
    intro stay' hstay'
    cases List.mem_append.mp hstay' with
    | inl hpast => exact h.steps_snoc hpast
    | inr hnew =>
      rw [List.mem_singleton.mp hnew, hturn, Journal.of_snoc]
      exact hsteps

end Apart

/-- Whatever callers do together, they have come as far as if they had come one at a time. -/
theorem Staged.exists_alone (h : Staged initial journal plant stages) :
    ∃ stays apart, Alone initial stays apart ∧ Apart journal stays apart plant stages := by
  induction h with
  | start => exact ⟨[], _, .start, .start⟩
  | @begin journal plant stages caller errand h hidle horderly ih =>
    obtain ⟨stays, apart, halone, hapart⟩ := ih
    have hsuits := h.sound.suits caller
    rw [hidle] at hsuits
    have houtside : stages caller = .outside := hsuits
    have hidle' := (hapart.outside caller houtside).trans hidle
    exact ⟨stays, _, halone.begin hidle' horderly, hapart.goOn houtside⟩
  | @finish journal plant stages caller h hleft ih =>
    obtain ⟨stays, apart, halone, hapart⟩ := ih
    have hsuits := h.sound.suits caller
    rw [hleft] at hsuits
    have houtside : stages caller = .outside := hsuits
    have hleft' := (hapart.outside caller houtside).trans hleft
    exact ⟨stays, _, halone.finish hleft', hapart.goOn houtside⟩
  | @call journal plant after stages stage caller call next answer h hleft hanswer hnext ih =>
    obtain ⟨stays, apart, halone, hapart⟩ := ih
    generalize hstage : stages caller = before at hnext
    have hengine : (stages caller).engine? = before.engine? := congrArg Stage.engine? hstage
    cases hnext with
    | aside haside =>
      -- outside of turns both go on, inside only the caller who shares
      cases stage with
      | outside =>
        have hleft' := (hapart.outside caller hstage).trans hleft
        rw [hanswer.eq haside.2, ← hstage, Function.update_eq_self]
        exact ⟨stays, _, halone.aside hleft' haside answer,
          (hapart.wrote hstage haside.within.1).goOn hstage⟩
      | inside engine serial use =>
        exact ⟨stays, apart, halone, hapart.within hleft hanswer haside.within hengine rfl⟩
    | stroke hstroke =>
      have hwithin := Call.within_of_stroke hstroke
      exact ⟨stays, apart, halone, hapart.within hleft hanswer hwithin hengine rfl⟩
    | takeBus =>
      exact ⟨stays, apart, halone, hapart.within hleft hanswer ⟨rfl, id⟩ hengine rfl⟩
    | giveBus =>
      exact ⟨stays, apart, halone, hapart.within hleft hanswer ⟨rfl, id⟩ hengine rfl⟩
    | takeTransport =>
      obtain ⟨hfree, hfound, hafter⟩ := hanswer
      rw [hfound]
      exact ⟨stays, apart, halone, hapart.taken hstage hleft hfree hafter⟩
    | giveTransport =>
      -- everything else was a preparation for this
      obtain ⟨stay, hturn, rfl, hsteps, hstay⟩ := hapart.closes halone hengine hleft
      exact ⟨_, _, hstay, hapart.given h.sound hengine hanswer hturn hsteps⟩

namespace Sound

variable (h : Sound initial plant stages)
include h

/-- Whoever has come to an end has nothing. -/
theorem idle (hidle : plant.left caller = none ∨ plant.left caller = some (.done ())) :
    (∀ engine, plant.user engine ≠ some caller) ∧ ∀ bus, plant.holder bus ≠ some caller := by
  have houtside : stages caller = .outside := by
    have hsuits := h.suits caller
    cases hidle with
    | inl hnone =>
      rw [hnone] at hsuits
      exact hsuits
    | inr hdone =>
      rw [hdone] at hsuits
      exact hsuits
  constructor
  · intro engine huser
    have hengine : (stages caller).engine? = some engine := (h.users engine caller).mp huser
    rw [houtside] at hengine
    cases hengine
  · intro bus hholder
    have hbus : (stages caller).bus? = some bus := (h.holders bus caller).mp hholder
    rw [houtside] at hbus
    cases hbus

/-- Whoever has a bus has the transport of an engine on this bus. -/
theorem user_of_holder {bus : Handle} (hholder : plant.holder bus = some caller) :
    ∃ engine, plant.user engine = some caller ∧ (initial engine).bus = bus := by
  have hbus : (stages caller).bus? = some bus := (h.holders bus caller).mp hholder
  cases hstage : stages caller with
  | outside =>
    rw [hstage] at hbus
    cases hbus
  | inside engine serial use =>
    refine ⟨engine, (h.users engine caller).mpr (congrArg Stage.engine? hstage), ?_⟩
    obtain ⟨health, hserial⟩ := h.serial engine
    rw [h.found hstage] at hserial
    cases hserial
    rw [hstage] at hbus
    cases use with
    | held left => exact Option.some.inj hbus
    | untouched | returned => cases hbus

end Sound

/-- The strokes of a turn go to one line, in their order. -/
theorem Recorded.strokes (h : Recorded initial journal plant stages)
    (hsound : Sound initial plant stages) (turn : Turn) :
    ∃ engine, Action.strokes (journal.of turn) <+: Stroke.orderOn (initial engine).line := by
  rcases Nat.lt_trichotomy turn.index (plant.turns turn.caller) with hpast | hnow | hfuture
  · obtain ⟨engine, hended⟩ := h.past turn hpast
    exact ⟨engine, hended.strokes⟩
  · have hturn : turn = plant.turn turn.caller := Turn.ext rfl hnow
    have hfits := h.current turn.caller
    rw [← hturn] at hfits
    cases hstage : stages turn.caller with
    | outside =>
      rw [hstage] at hfits
      rw [hfits.1]
      exact ⟨0, _, rfl⟩
    | inside engine serial use =>
      rw [hstage] at hfits
      obtain ⟨health, hserial⟩ := hsound.serial engine
      rw [hsound.found hstage] at hserial
      cases hserial
      exact ⟨engine, hfits.strokes⟩
  · rw [h.future turn hfuture]
    exact ⟨0, _, rfl⟩

/-! ### Runs of single turns -/

/-- What is done with the transport of an engine is done between taking it and giving it back. -/
theorem Engine.use_runs {α : Type} {engine : Engine} {work : Transport → Action (α × Transport)}
    {found left : Transport} {calls : List Action.Step} {result : α}
    (h : (work found).Runs calls (result, left)) :
    (engine.use work).Runs (⟨.acquireTransport engine.transport, found⟩ :: calls ++
      [⟨.releaseTransport engine.transport left, ()⟩]) result := by
  refine Action.runs_perform_bind_iff.mpr ⟨found, _, rfl, Action.runs_bind_iff.mpr ?_⟩
  exact ⟨calls, _, _, rfl, h, .ask (.done result)⟩

namespace Serial.Transport

variable (line bus : Handle) (health : Health) {unit : UnitId} {function : UInt8}
  {payload frame reply : Bytes}

/-- A request that is written and answered. -/
theorem exchange_runs {node echo : UInt8} {rest : Bytes} {length : Nat}
    (hencode : Frame.Rtu.encode unit function payload = .ok frame)
    (hlength : rest.length = remaining echo length)
    (hdecode : Frame.Rtu.decode (node :: echo :: rest) length .strict = .ok reply) :
    (ModbusMaster.Transport.exchange (.rtu { line, bus, options := {}, health }) unit function
      payload length).Runs
      [⟨.acquireBus bus, ()⟩, ⟨.flush line, .ok ()⟩, ⟨.write line frame, .ok ()⟩,
        ⟨.read line 2, .ok [node, echo]⟩, ⟨.read line (remaining echo length), .ok rest⟩,
        ⟨.releaseBus bus, ()⟩]
      (.ok reply, .rtu { line, bus, options := {}, health := ⟨.on, none⟩ }) := by
  let transport : Serial.Transport := { line, bus, options := {}, health }
  have hframe : (transport.exchangeFrame frame length).Runs
      [⟨.flush line, .ok ()⟩, ⟨.write line frame, .ok ()⟩, ⟨.read line 2, .ok [node, echo]⟩,
        ⟨.read line (remaining echo length), .ok rest⟩] (.ok reply, node :: echo :: rest) := by
    have hsettle : transport.settle (node :: echo :: rest) length =
        pure (.ok reply, node :: echo :: rest) := by
      unfold settle
      simp only [transport, hdecode]
      rfl
    refine .ask (.ask (.ask (.ask ?_)))
    show (if rest.length < remaining echo length then _
      else transport.settle (node :: echo :: rest) length).Runs _ _
    rw [if_neg (Nat.not_lt.mpr (Nat.le_of_eq hlength.symm)), hsettle]
    exact .done _
  refine Action.runs_bind_iff.mpr ⟨_, [], (.ok reply, { transport with health := ⟨.on, none⟩ }),
    (List.append_nil _).symm, ?_, .done _⟩
  unfold exchange
  rw [hencode]
  refine Action.runs_perform_bind_iff.mpr ⟨(), _, rfl, Action.runs_bind_iff.mpr ?_⟩
  exact ⟨_, [⟨.releaseBus bus, ()⟩], _, rfl, hframe, .ask (.done _)⟩

/-- A request that is written and waits for nothing. -/
theorem send_runs (hencode : Frame.Rtu.encode unit function payload = .ok frame) :
    (ModbusMaster.Transport.send (.rtu { line, bus, options := {}, health }) unit function
      payload).Runs
      [⟨.acquireBus bus, ()⟩, ⟨.flush line, .ok ()⟩, ⟨.write line frame, .ok ()⟩,
        ⟨.releaseBus bus, ()⟩]
      (.ok (), .rtu { line, bus, options := {}, health := ⟨.on, none⟩ }) := by
  refine Action.runs_bind_iff.mpr
    ⟨_, [], (.ok (), { line, bus, options := {}, health := ⟨.on, none⟩ }),
      (List.append_nil _).symm, ?_, .done _⟩
  unfold send
  rw [hencode]
  exact .ask (.ask (.ask (.ask (.done _))))

end Serial.Transport

namespace Sharing

/-- A caller may make several calls in a row, up to the end of its turn. -/
theorem run (caller : Nat) {calls : List Action.Step} {left rest : Action Unit}
    (h : Sharing initial journal plant) (hleft : plant.left caller = some left)
    (hleaves : left.Leaves calls rest)
    (hanswers : Environment.Allows (Plant.Answers caller) plant calls after)
    (hturn : ∀ step ∈ calls.dropLast, ¬ step.call.EndsTurn) :
    Sharing initial (journal ++ calls.map (plant.turn caller, ·))
      (after.goOn caller (some rest)) := by
  induction hleaves generalizing journal plant after with
  | start left =>
    have hsame : after = plant := by
      cases hanswers
      rfl
    rw [hsame, ← hleft, Plant.goOn, Function.update_eq_self, List.map_nil, List.append_nil]
    exact h
  | @ask call next answer calls left rest ih =>
    cases hanswers with
    | @cons _ middle _ _ _ hanswer hanswers =>
      have hcalled := h.call hleft hanswer
      cases calls with
      | nil =>
        cases hanswers
        generalize next answer = action at rest hcalled
        cases rest
        exact hcalled
      | cons step calls =>
        obtain ⟨hends, hturn⟩ := List.forall_mem_cons.mp hturn
        have hsame : (middle.goOn caller (some (next answer))).turn caller = plant.turn caller :=
          Plant.turn_congr (hanswer.turns_eq hends)
        have hrun := ih hcalled (Function.update_self _ _ _) (Plant.allows_goOn hanswers _ _) hturn
        have hlast : (after.goOn caller (some (next answer))).goOn caller (some left) =
            after.goOn caller (some left) := by
          simp only [Plant.goOn, Function.update_idem]
        rw [hsame, hlast, List.append_assoc] at hrun
        exact hrun

/-- Callers may share engines and engines may share buses in any way, be there polling tasks among
them or not, and lines may fail at any time. What is seen on the lines of a bus are the strokes of
one turn after the other; those of a turn are the first ones of a flush, a write and two reads on
one line. Everybody gets what he would have got if everybody had used the transports alone, one
after the other in the order in which they were taken; so the transports say the same as well.
Whatever a turn takes it gives back, and whoever has done what he wanted to has nothing left. And
as long as there is an operation, one of the operations can go on. -/
theorem exclusive {busOf : Handle → Handle}
    (hwired : ∀ engine, busOf (initial engine).line = (initial engine).bus)
    (h : Sharing initial journal plant) :
    (∀ bus, (journal.takings Call.bus? bus).Nodup ∧
      journal.traffic busOf bus = (journal.takings Call.bus? bus).flatMap journal.strokesOf) ∧
    (∀ turn, ∃ engine,
      Action.strokes (journal.of turn) <+: Stroke.orderOn (initial engine).line) ∧
    (∃ stays apart, Alone initial stays apart ∧ apart.transports = plant.transports ∧
      (∀ caller, (∀ engine, plant.user engine ≠ some caller) →
        apart.left caller = plant.left caller) ∧
      (∀ engine caller, plant.user engine = some caller →
        Amid journal apart plant caller engine) ∧
      (∀ engine, journal.takings Call.engine? engine =
        Stay.turnsWith stays engine ++ (plant.user engine).toList.map plant.turn) ∧
      ∀ stay ∈ stays, stay.steps <:+ journal.of stay.turn) ∧
    (∀ turn : Turn, turn.index < plant.turns turn.caller →
      ∃ engine, Ended engine (initial engine) (journal.of turn)) ∧
    (∀ caller, plant.left caller = none ∨ plant.left caller = some (.done ()) →
      (∀ engine, plant.user engine ≠ some caller) ∧ ∀ bus, plant.holder bus ≠ some caller) ∧
    (∀ bus caller, plant.holder bus = some caller →
      ∃ engine, plant.user engine = some caller ∧ (initial engine).bus = bus) ∧
    (∀ caller, plant.Operating caller →
      ∃ caller', plant.Operating caller' ∧ plant.CanGoOn caller') ∧
    (∀ (device : Device) operation, (device.perform operation).Orderly) ∧
    (∀ (task : PollTask) phase, task.start.Orderly ∧ (task.step phase).Orderly) ∧
    (∀ (manager : CacheManager) function start count command,
      (manager.read function start count).Orderly ∧ (manager.send command).Orderly) ∧
    ∀ (engine : Engine) unit function payload length,
      engine.connect.Orderly ∧ (engine.exchange function payload length).Orderly ∧
        (engine.sendTo unit function payload).Orderly ∧ engine.state.Orderly ∧
        engine.lastError.Orderly ∧ engine.connection?.Orderly ∧ engine.status.Orderly := by
  obtain ⟨stages, hstaged⟩ := h.staged
  have hsound := hstaged.sound
  have hrecorded := hstaged.recorded
  obtain ⟨stays, apart, halone, hapart⟩ := hstaged.exists_alone
  refine ⟨?buses, hrecorded.strokes hsound, ⟨stays, apart, halone, hapart.transports, ?outside,
    ?inside, hapart.takings, hapart.steps⟩, hrecorded.past, fun _ => hsound.idle,
    fun _ _ => hsound.user_of_holder, fun _ => hsound.goesOn, ?devices, ?tasks, ?managers, ?engines⟩
  case buses =>
    intro bus
    have hturns := hstaged.inTurns hwired bus
    exact ⟨hturns.nodup, hturns.traffic⟩
  case outside =>
    intro caller hnothing
    apply hapart.outside
    cases hstage : stages caller with
    | outside => rfl
    | inside engine serial use =>
      exact absurd ((hsound.users engine caller).mpr (congrArg Stage.engine? hstage))
        (hnothing engine)
  case inside =>
    intro engine caller huser
    exact hapart.inside caller engine ((hsound.users engine caller).mp huser)
  case devices => exact fun _ _ => Device.perform_orderly
  case tasks => exact fun _ phase => ⟨PollTask.start_orderly, PollTask.step_orderly phase⟩
  case managers =>
    exact fun _ _ _ _ command => ⟨CacheManager.read_orderly, CacheManager.send_orderly command⟩
  case engines =>
    intro engine unit function payload length
    exact ⟨Engine.connect_orderly, Engine.exchange_orderly, Engine.sendTo_orderly,
      Engine.observe_orderly _, Engine.observe_orderly _, Engine.observe_orderly _,
      Engine.status_orderly⟩

/-- Two callers want one engine, and a third one wants another engine on the same bus. The first
one's register is written while the second waits for the engine and the third for the bus; then the
other line cannot be flushed, and at last the second caller sends. -/
theorem exclusive_contended :
    let initial : Handle → Serial.Transport := fun line => { line, bus := 0, options := {} }
    let pump : Engine := ⟨⟨1⟩, .rtu, 3⟩
    let valve : Engine := ⟨⟨2⟩, .rtu, 4⟩
    let writes : Action Unit := (fun _ => ()) <$> pump.exchange 6 [0, 4, 0, 9] 5
    let sends : Action Unit := (fun _ => ()) <$> pump.send 5 [0, 1, 0, 0]
    let fails : Action Unit := (fun _ => ()) <$> valve.send 6 [0, 4, 0, 9]
    let done : Transport := .rtu { initial 3 with health := ⟨.on, none⟩ }
    let failed : Transport :=
      .rtu { initial 4 with health := ⟨.unknown, some (RequestError.io .brokenPipe).message⟩ }
    let waiting : Journal :=
      [⟨.acquireTransport 3, .rtu (initial 3)⟩].map (⟨0, 0⟩, ·) ++
      [⟨.acquireTransport 4, .rtu (initial 4)⟩].map (⟨2, 0⟩, ·) ++
      [⟨.acquireBus 0, ()⟩, ⟨.flush 3, .ok ()⟩].map (⟨0, 0⟩, ·)
    let journal : Journal := waiting ++
      [⟨.write 3 [1, 6, 0, 4, 0, 9, 8, 13], .ok ()⟩, ⟨.read 3 2, .ok [1, 6]⟩,
        ⟨.read 3 6, .ok [0, 4, 0, 9, 8, 13]⟩, ⟨.releaseBus 0, ()⟩].map (⟨0, 0⟩, ·) ++
      [⟨.acquireBus 0, ()⟩, ⟨.flush 4, .error .brokenPipe⟩, ⟨.releaseBus 0, ()⟩].map (⟨2, 0⟩, ·) ++
      [⟨.releaseTransport 3 done, ()⟩].map (⟨0, 0⟩, ·) ++
      [⟨.releaseTransport 4 failed, ()⟩].map (⟨2, 0⟩, ·) ++
      [⟨.acquireTransport 3, done⟩, ⟨.acquireBus 0, ()⟩, ⟨.flush 3, .ok ()⟩,
        ⟨.write 3 [1, 5, 0, 1, 0, 0, 156, 10], .ok ()⟩, ⟨.releaseBus 0, ()⟩,
        ⟨.releaseTransport 3 done, ()⟩].map (⟨1, 0⟩, ·)
    (∃ plant, Sharing initial waiting plant ∧ plant.user 3 = some 0 ∧ plant.holder 0 = some 0 ∧
      plant.left 1 = some sends ∧ ¬ plant.CanGoOn 1 ∧ ¬ plant.CanGoOn 2 ∧
      ∃ caller, plant.Operating caller ∧ plant.CanGoOn caller) ∧
    ∃ plant, Sharing initial journal plant ∧ plant.transports 3 = done ∧
      plant.transports 4 = failed ∧ writes.Runs (journal.of ⟨0, 0⟩) () ∧
      sends.Runs (journal.of ⟨1, 0⟩) () ∧ fails.Runs (journal.of ⟨2, 0⟩) () ∧
      journal.traffic (fun _ => 0) 0 =
        [⟨0, 0⟩, ⟨2, 0⟩, ⟨1, 0⟩].flatMap journal.strokesOf ∧
      Action.strokes (journal.of ⟨0, 0⟩) = Stroke.orderOn 3 := by
  intro initial pump valve writes sends fails done failed waiting journal
  have hwrites : writes.Runs
      ([⟨.acquireTransport 3, .rtu (initial 3)⟩] ++
        ([⟨.acquireBus 0, ()⟩, ⟨.flush 3, .ok ()⟩] ++
          ([⟨.write 3 [1, 6, 0, 4, 0, 9, 8, 13], .ok ()⟩, ⟨.read 3 2, .ok [1, 6]⟩,
              ⟨.read 3 6, .ok [0, 4, 0, 9, 8, 13]⟩, ⟨.releaseBus 0, ()⟩] ++
            [⟨.releaseTransport 3 done, ()⟩]))) () := by
    have hencode : Frame.Rtu.encode ⟨1⟩ 6 [0, 4, 0, 9] = .ok [1, 6, 0, 4, 0, 9, 8, 13] := by
      decide +kernel
    have hdecode : Frame.Rtu.decode [1, 6, 0, 4, 0, 9, 8, 13] 5 .strict = .ok [6, 0, 4, 0, 9] := by
      decide +kernel
    have hturn := Serial.Transport.exchange_runs 3 0 (initial 3).health hencode rfl hdecode
    exact Action.runs_bind_iff.mpr ⟨_, [], _, rfl, Engine.use_runs hturn, .done _⟩
  have hfails : fails.Runs
      ([⟨.acquireTransport 4, .rtu (initial 4)⟩] ++
        ([⟨.acquireBus 0, ()⟩, ⟨.flush 4, .error .brokenPipe⟩, ⟨.releaseBus 0, ()⟩] ++
          [⟨.releaseTransport 4 failed, ()⟩])) () :=
    .ask (.ask (.ask (.ask (.ask (.done _)))))
  have hsends : sends.Runs
      [⟨.acquireTransport 3, done⟩, ⟨.acquireBus 0, ()⟩, ⟨.flush 3, .ok ()⟩,
        ⟨.write 3 [1, 5, 0, 1, 0, 0, 156, 10], .ok ()⟩, ⟨.releaseBus 0, ()⟩,
        ⟨.releaseTransport 3 done, ()⟩] () := by
    have hencode : Frame.Rtu.encode ⟨1⟩ 5 [0, 1, 0, 0] = .ok [1, 5, 0, 1, 0, 0, 156, 10] := by
      decide +kernel
    have hturn := Serial.Transport.send_runs 3 0 ⟨.on, none⟩ hencode
    exact Action.runs_bind_iff.mpr ⟨_, [], _, rfl, Engine.use_runs hturn, .done _⟩
  -- every turn is cut where another caller comes in between
  obtain ⟨found, hfound, hleft⟩ := hwrites.leaves.split
  obtain ⟨flushed, hflushed, hleft⟩ := hleft.split
  obtain ⟨answered, hanswered, hgives⟩ := hleft.split
  obtain ⟨found', hfound', hleft⟩ := hfails.leaves.split
  obtain ⟨refused, hrefused, hgives'⟩ := hleft.split
  have hforgets : ∀ {α : Type} (action : Action α), action.Orderly →
      ((fun _ => ()) <$> action).Orderly := fun _ h => h.bind fun _ => Action.orderly_pure ()
  let begun : Plant :=
    (((Plant.start initial).goOn 0 (some writes)).goOn 1 (some sends)).goOn 2 (some fails)
  have hbegun : Sharing initial [] begun :=
    .begin (.begin (.begin .start rfl (hforgets _ Engine.exchange_orderly)) rfl
      (hforgets _ Engine.sendTo_orderly)) rfl (hforgets _ Engine.sendTo_orderly)
  have hwaiting := hbegun.run 0 rfl hfound (.cons ⟨rfl, rfl, rfl⟩ (.nil _)) (List.forall_mem_nil _)
  have hwaiting := hwaiting.run 2 rfl hfound' (.cons ⟨rfl, rfl, rfl⟩ (.nil _))
    (List.forall_mem_nil _)
  have hwaiting := hwaiting.run 0 rfl hflushed (.cons ⟨rfl, rfl⟩ (.cons rfl (.nil _)))
    (List.forall_mem_singleton.mpr id)
  let busOf : Handle → Handle := fun _ => 0
  have hwired : ∀ engine, busOf (initial engine).line = (initial engine).bus := fun _ => rfl
  constructor
  case left =>
    obtain ⟨-, -, -, -, -, -, hgoes, -⟩ := exclusive hwired hwaiting
    refine ⟨_, hwaiting, rfl, rfl, rfl, ?_, ?_, hgoes 0 (.inl ⟨3, rfl⟩)⟩
    · rw [Plant.canGoOn_iff rfl hsends.leaves]
      rintro ⟨_, _, hfree, -⟩
      exact Option.some_ne_none 0 hfree
    · rw [Plant.canGoOn_iff rfl hrefused]
      rintro ⟨_, _, hfree, -⟩
      exact Option.some_ne_none 0 hfree
  case right =>
    have hjournal := hwaiting.run 0 rfl hanswered
      (.cons rfl (.cons rfl (.cons rfl (.cons rfl (.nil _))))) (by simp [Call.EndsTurn])
    have hjournal := hjournal.run 2 rfl hrefused
      (.cons ⟨rfl, rfl⟩ (.cons rfl (.cons rfl (.nil _)))) (by simp [Call.EndsTurn])
    have hjournal := hjournal.run 0 rfl hgives (.cons rfl (.nil _)) (List.forall_mem_nil _)
    have hjournal := hjournal.run 2 rfl hgives' (.cons rfl (.nil _)) (List.forall_mem_nil _)
    have hjournal := hjournal.run 1 rfl hsends.leaves
      (.cons ⟨rfl, rfl, rfl⟩ (.cons ⟨rfl, rfl⟩
        (.cons rfl (.cons rfl (.cons rfl (.cons rfl (.nil _)))))))
      (by simp [Call.EndsTurn])
    obtain ⟨hbuses, -⟩ := exclusive hwired hjournal
    exact ⟨_, hjournal, rfl, rfl, hwrites, hsends, hfails, (hbuses 0).2, rfl⟩

end Sharing

end ModbusMaster
