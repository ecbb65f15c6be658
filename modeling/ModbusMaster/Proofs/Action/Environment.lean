import ModbusMaster.Proofs.Action.Calls

/-!
Actions in an environment. An environment has states, and says how each call may be answered in a
state and what that makes of the state. `Action.Ensures` is what holds at the end of an action
however its calls are answered; `Action.ensures_iff` ties it to the runs of the action.
`Action.Obeys` says in addition that no call is made that the environment does not answer, and
`Action.Panics` what holds where an action panics.
-/

namespace ModbusMaster

/-- How a call may be answered in a state, with the state afterwards. -/
abbrev Environment (σ : Type) := σ → Action.Step → σ → Prop

namespace Environment

variable {σ : Type}

/-- The environment answers as a history says, from one state to another. -/
inductive Allows (env : Environment σ) : σ → List Action.Step → σ → Prop where
  | nil (state : σ) : Allows env state [] state
  | cons {state middle final : σ} {step : Action.Step} {history : List Action.Step}
      (answer : env state step middle) (rest : Allows env middle history final) :
      Allows env state (step :: history) final

/-- What is allowed in two parts is allowed in the state between them. -/
theorem Allows.split {env : Environment σ} {state final : σ} {first second : List Action.Step}
    (h : env.Allows state (first ++ second) final) :
    ∃ middle, env.Allows state first middle ∧ env.Allows middle second final := by
  induction first generalizing state with
  | nil => exact ⟨state, .nil state, h⟩
  | cons step first ih =>
    cases h with
    | cons answer rest =>
      obtain ⟨middle, hfirst, hsecond⟩ := ih rest
      exact ⟨middle, .cons answer hfirst, hsecond⟩

end Environment

namespace Action

variable {σ α β : Type}

/-- However the calls of an action are answered, its result and the state it leaves satisfy
`post`. -/
def Ensures (env : Environment σ) : Action α → (α → σ → Prop) → σ → Prop
  | done result, post, state => post result state
  | ask call next, post, state =>
      ∀ answer after, env state ⟨call, answer⟩ after → (next answer).Ensures env post after

variable {env : Environment σ} {post post' : α → σ → Prop} {state : σ}

/-- A call is made first, then the rest of an action. -/
theorem ensures_perform_bind {call : Call} {next : call.Answer → Action α} :
    (perform call >>= next).Ensures env post state ↔
      ∀ answer after, env state ⟨call, answer⟩ after → (next answer).Ensures env post after :=
  Iff.rfl

theorem Ensures.mono {action : Action α} (h : action.Ensures env post state)
    (himp : ∀ result after, post result after → post' result after) :
    action.Ensures env post' state := by
  induction action generalizing state with
  | done result => exact himp result state h
  | ask call next ih => exact fun answer after hanswer => ih answer (h answer after hanswer)

/-- One action after another. -/
theorem ensures_bind {action : Action α} {next : α → Action β} {post : β → σ → Prop} :
    (action >>= next).Ensures env post state ↔
      action.Ensures env (fun result after => (next result).Ensures env post after) state := by
  induction action generalizing state with
  | done result => exact Iff.rfl
  | ask call rest ih =>
    exact forall_congr' fun answer => forall_congr' fun after => imp_congr_right fun _ => ih answer

theorem Ensures.bind {action : Action α} {next : α → Action β} {post' : β → σ → Prop}
    (h : action.Ensures env post state)
    (hnext : ∀ result after, post result after → (next result).Ensures env post' after) :
    (action >>= next).Ensures env post' state :=
  ensures_bind.mpr (h.mono hnext)

/-- What an action ensures is what holds at the end of all its runs. -/
theorem ensures_iff {action : Action α} :
    action.Ensures env post state ↔ ∀ history result after,
      action.Runs history result → env.Allows state history after → post result after := by
  induction action generalizing state with
  | done result =>
    constructor
    · intro h history result' after hruns hallows
      cases hruns
      cases hallows
      exact h
    · intro h
      exact h [] result state (.done result) (.nil state)
  | ask call next ih =>
    constructor
    · intro h history result after hruns hallows
      cases hruns with
      | ask rest =>
        cases hallows with
        | cons hanswer hrest => exact (ih _).mp (h _ _ hanswer) _ _ _ rest hrest
    · intro h answer after hanswer
      refine (ih answer).mpr fun history result final hruns hallows => ?_
      exact h _ result final (.ask hruns) (.cons hanswer hallows)

theorem ensures_any (action : Action α) : action.Ensures env (fun _ _ => True) state :=
  ensures_iff.mpr fun _ _ _ _ _ => trivial

/-- Whatever an action comes to, what follows it settles. -/
theorem ensures_any_bind {action : Action α} {next : α → Action β} {post : β → σ → Prop}
    (h : ∀ result after, (next result).Ensures env post after) :
    (action >>= next).Ensures env post state :=
  (ensures_any action).bind fun result after _ => h result after

/-- What follows a condition may rely on it where a panic is not answered. -/
theorem ensures_require_bind {condition : Prop} [Decidable condition] {cause : Panic}
    {next : Unit → Action α} (hpanic : ∀ answer after, ¬ env state ⟨.panic cause, answer⟩ after)
    (h : condition → (next ()).Ensures env post state) :
    (require condition cause >>= next).Ensures env post state := by
  unfold require
  split
  next hcondition => exact h hcondition
  next => exact fun answer after hanswer => absurd hanswer (hpanic answer after)

/-! ### Panics -/

/-- However the calls of an action are answered, wherever it panics the cause and the state satisfy
`post`. -/
def Panics (env : Environment σ) : Action α → (Panic → σ → Prop) → σ → Prop
  | done _, _, _ => True
  | ask call next, post, state =>
      (∀ cause, call = .panic cause → post cause state) ∧
        ∀ answer after, env state ⟨call, answer⟩ after → (next answer).Panics env post after

section Panics

variable {cond cond' : Panic → σ → Prop}

theorem Panics.mono {action : Action α} (h : action.Panics env cond state)
    (himp : ∀ cause after, cond cause after → cond' cause after) :
    action.Panics env cond' state := by
  induction action generalizing state with
  | done result => trivial
  | ask call next ih =>
    exact ⟨fun cause hcall => himp cause state (h.1 cause hcall),
      fun answer after hanswer => ih answer (h.2 answer after hanswer)⟩

/-- One action after another panics where the first does, or where the second does after it. -/
theorem Panics.bind {action : Action α} {next : α → Action β}
    (h : action.Panics env cond state) (hends : action.Ensures env post state)
    (hnext : ∀ result after, post result after → (next result).Panics env cond after) :
    (action >>= next).Panics env cond state := by
  induction action generalizing state with
  | done result => exact hnext result state hends
  | ask call rest ih =>
    exact ⟨h.1, fun answer after hanswer =>
      ih answer (h.2 answer after hanswer) (hends answer after hanswer)⟩

end Panics

/-! ### Calls that are in order -/

/-- Every call of an action is one that the environment answers in the state in which it is made,
and however it does, the result and the state it leaves satisfy `post`. -/
def Obeys (env : Environment σ) : Action α → (α → σ → Prop) → σ → Prop
  | done result, post, state => post result state
  | ask call next, post, state =>
      (∃ answer after, env state ⟨call, answer⟩ after) ∧
        ∀ answer after, env state ⟨call, answer⟩ after → (next answer).Obeys env post after

/-- A call is made first, then the rest of an action. -/
theorem obeys_perform_bind {call : Call} {next : call.Answer → Action α} :
    (perform call >>= next).Obeys env post state ↔
      (∃ answer after, env state ⟨call, answer⟩ after) ∧
        ∀ answer after, env state ⟨call, answer⟩ after → (next answer).Obeys env post after :=
  Iff.rfl

theorem Obeys.mono {action : Action α} (h : action.Obeys env post state)
    (himp : ∀ result after, post result after → post' result after) :
    action.Obeys env post' state := by
  induction action generalizing state with
  | done result => exact himp result state h
  | ask call next ih =>
    exact ⟨h.1, fun answer after hanswer => ih answer (h.2 answer after hanswer)⟩

theorem Obeys.bind {action : Action α} {next : α → Action β} {post' : β → σ → Prop}
    (h : action.Obeys env post state)
    (hnext : ∀ result after, post result after → (next result).Obeys env post' after) :
    (action >>= next).Obeys env post' state := by
  induction action generalizing state with
  | done result => exact hnext result state h
  | ask call rest ih =>
    exact ⟨h.1, fun answer after hanswer => ih answer (h.2 answer after hanswer)⟩

/-- Calls that are always answered and change nothing are in order in every state. -/
theorem Does.obeys {may : Call → Prop} {post : α → Prop} {action : Action α}
    (h : action.Does may post)
    (hanswered : ∀ call, may call → ∃ answer, env state ⟨call, answer⟩ state)
    (hsame : ∀ call answer after, may call → env state ⟨call, answer⟩ after → after = state) :
    action.Obeys env (fun result after => post result ∧ after = state) state := by
  induction action with
  | done result => exact ⟨h, rfl⟩
  | ask call next ih =>
    obtain ⟨answer, hanswer⟩ := hanswered call h.1
    refine ⟨⟨answer, state, hanswer⟩, fun answer after hanswer => ?_⟩
    rw [hsame call answer after h.1 hanswer]
    exact ih answer (h.2 answer)

/-! ### Worlds that answer at once -/

variable {answer : (call : Call) → σ → call.Answer × σ}

@[simp] theorem run_pure (result : α) (state : σ) :
    (pure result : Action α).run answer state = (result, state) := rfl

@[simp] theorem run_perform (call : Call) (state : σ) :
    (perform call).run answer state = answer call state := rfl

@[simp] theorem run_bind (action : Action α) (next : α → Action β) (state : σ) :
    (action >>= next).run answer state =
      (next (action.run answer state).1).run answer (action.run answer state).2 := by
  induction action generalizing state with
  | done result => rfl
  | ask call rest ih => exact ih _ _

@[simp] theorem run_map (f : α → β) (action : Action α) (state : σ) :
    (f <$> action).run answer state =
      (f (action.run answer state).1, (action.run answer state).2) :=
  run_bind action (fun result => pure (f result)) state

/-- A view of the states through which every call is answered in the same way is one through which
every action runs in the same way. -/
theorem run_view {view : σ → σ}
    (hanswer : ∀ call state,
      answer call (view state) = ((answer call state).1, view (answer call state).2))
    (action : Action α) (state : σ) :
    action.run answer (view state) =
      ((action.run answer state).1, view (action.run answer state).2) := by
  induction action generalizing state with
  | done result => rfl
  | ask call next ih =>
    rw [run, hanswer]
    exact ih _ _

end Action

end ModbusMaster
