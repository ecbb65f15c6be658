import ModbusMaster.Action

/-!
The calls that an action can make, whatever the answers to them are. `Action.Within` bounds how
many there are, so an action that has such a bound comes to an end. `Action.Does` says which calls
there can be and what the results are like. `Action.Reaches` is a run that need not have come to
its end.
-/

namespace ModbusMaster

/-- The answer to a call that comes to nothing: there are no bytes, and nothing fails. -/
def Call.idle : (call : Call) → call.Answer
  | .flush _ | .write _ _ | .transmit _ _ _ => .ok ()
  | .read _ _ | .receive _ _ _ => .ok []
  | .connect _ _ | .openPort _ _ => .ok (0 : Nat)
  | .acquireTransport _ => .rtu { line := 0, bus := 0, options := {} }
  | .now | .newEngine _ | .newCache _ => (0 : Nat)
  | .entries _ => []
  | .command _ _ => true
  | .await _ _ => .due
  | .appendLog _ _ => none
  | .acquireBus _ | .releaseBus _ | .close _ | .releaseTransport _ _ | .sleep _ | .sleepUntil _
  | .publish _ _ _ | .startPolling _ | .report _ | .print _ | .panic _ => ()

namespace Action

variable {α β : Type}

/-- The action makes at most `count` calls and is over then. -/
def Within : Action α → Nat → Prop
  | done _, _ => True
  | ask _ _, 0 => False
  | ask _ next, count + 1 => ∀ answer, (next answer).Within count

theorem Within.mono {action : Action α} {m n : Nat} (h : action.Within m) (hle : m ≤ n) :
    action.Within n := by
  induction action generalizing m n with
  | done result => trivial
  | ask call next ih =>
    cases m with
    | zero => exact h.elim
    | succ m =>
      cases n with
      | zero => exact absurd hle (Nat.not_succ_le_zero m)
      | succ n => exact fun answer => ih answer (h answer) (Nat.le_of_succ_le_succ hle)

/-- The calls of one action after another add up. -/
theorem Within.bind {action : Action α} {next : α → Action β} {m n : Nat}
    (h : action.Within m) (hnext : ∀ result, (next result).Within n) :
    (action >>= next).Within (m + n) := by
  induction action generalizing m with
  | done result => exact (hnext result).mono (Nat.le_add_left n m)
  | ask call rest ih =>
    cases m with
    | zero => exact h.elim
    | succ m =>
      rw [Nat.add_right_comm]
      exact fun answer => ih answer (h answer)

/-- No run has more calls than there can be. -/
theorem Within.length_le {action : Action α} {count : Nat} {history : List Step} {result : α}
    (h : action.Within count) (hruns : action.Runs history result) : history.length ≤ count := by
  induction hruns generalizing count with
  | done result => exact Nat.zero_le count
  | ask rest ih =>
    cases count with
    | zero => exact h.elim
    | succ count => exact Nat.succ_le_succ (ih (h _))

variable {may : Call → Prop} {post post' : α → Prop} {history : List Step}

/-- All calls of the action are of a kind, and all its results are. -/
def Does : Action α → (Call → Prop) → (α → Prop) → Prop
  | done result, _, post => post result
  | ask call next, may, post => may call ∧ ∀ answer, (next answer).Does may post

theorem does_perform {call : Call} {post : call.Answer → Prop} (hmay : may call)
    (hpost : ∀ answer, post answer) : (perform call).Does may post :=
  ⟨hmay, hpost⟩

theorem does_reportUnless {silent : Prop} [Decidable silent] {event : Event}
    (hmay : may (.report event)) :
    (if silent then pure () else report event).Does may fun _ => True := by
  split
  · exact trivial
  · exact does_perform hmay fun _ => trivial

theorem does_require {condition : Prop} [Decidable condition] {cause : Panic}
    (hmay : may (.panic cause)) : (require condition cause).Does may fun _ => True := by
  unfold require
  split
  · exact trivial
  · exact does_perform hmay fun _ => trivial

/-- A call is made first, then the rest of an action. -/
theorem does_perform_bind {call : Call} {next : call.Answer → Action α} :
    (perform call >>= next).Does may post ↔ may call ∧ ∀ answer, (next answer).Does may post :=
  Iff.rfl

theorem Does.mono {action : Action α} (h : action.Does may post)
    (himp : ∀ result, post result → post' result) : action.Does may post' := by
  induction action with
  | done result => exact himp result h
  | ask call next ih => exact ⟨h.1, fun answer => ih answer (h.2 answer)⟩

/-- What is of one kind may also be of a wider one. -/
theorem Does.mono_calls {action : Action α} {may' : Call → Prop} (h : action.Does may post)
    (himp : ∀ call, may call → may' call) : action.Does may' post := by
  induction action with
  | done result => exact h
  | ask call next ih => exact ⟨himp call h.1, fun answer => ih answer (h.2 answer)⟩

theorem Does.bind {action : Action α} {next : α → Action β} {post' : β → Prop}
    (h : action.Does may post) (hnext : ∀ result, post result → (next result).Does may post') :
    (action >>= next).Does may post' := by
  induction action with
  | done result => exact hnext result h
  | ask call rest ih => exact ⟨h.1, fun answer => ih answer (h.2 answer)⟩

/-- Every action makes calls of some kind and has some result. -/
theorem does_any (action : Action α) : action.Does (fun _ => True) fun _ => True := by
  induction action with
  | done result => trivial
  | ask call next ih => exact ⟨trivial, ih⟩

theorem Does.of_runs {action : Action α} {result : α} (h : action.Does may post)
    (hruns : action.Runs history result) : (∀ step ∈ history, may step.call) ∧ post result := by
  induction hruns with
  | done result => exact ⟨List.forall_mem_nil _, h⟩
  | ask rest ih =>
    obtain ⟨hcall, hnext⟩ := h
    obtain ⟨hcalls, hresult⟩ := ih (hnext _)
    exact ⟨List.forall_mem_cons.mpr ⟨hcall, hcalls⟩, hresult⟩

/-! ### Runs -/

theorem runs_pure_iff {result result' : α} :
    (pure result : Action α).Runs history result' ↔ history = [] ∧ result' = result := by
  constructor
  · intro h
    cases h
    exact ⟨rfl, rfl⟩
  · intro h
    obtain ⟨rfl, rfl⟩ := h
    exact .done _

theorem runs_perform_bind_iff {call : Call} {next : call.Answer → Action α} {result : α} :
    (perform call >>= next).Runs history result ↔
      ∃ answer rest, history = ⟨call, answer⟩ :: rest ∧ (next answer).Runs rest result := by
  constructor
  · intro h
    cases h with
    | ask rest => exact ⟨_, _, rfl, rest⟩
  · intro h
    obtain ⟨answer, rest, rfl, hrest⟩ := h
    exact .ask hrest

theorem runs_map_iff {action : Action α} {f : α → β} {result : β} :
    (f <$> action).Runs history result ↔
      ∃ inner, action.Runs history inner ∧ result = f inner := by
  constructor
  · intro h
    obtain ⟨first, second, inner, rfl, hruns, hdone⟩ := runs_bind_iff.mp h
    obtain ⟨rfl, rfl⟩ := runs_pure_iff.mp hdone
    rw [List.append_nil]
    exact ⟨inner, hruns, rfl⟩
  · intro h
    obtain ⟨inner, hruns, rfl⟩ := h
    exact runs_bind_iff.mpr ⟨history, [], inner, (List.append_nil _).symm, hruns, .done _⟩

/-- The action may make the calls of a history and be given the answers in it; some of it is left
to do. -/
inductive Reaches : Action α → List Step → Prop where
  | start (action : Action α) : Reaches action []
  | ask {call : Call} {next : call.Answer → Action α} {answer : call.Answer}
      {history : List Step} (rest : Reaches (next answer) history) :
      Reaches (ask call next) (⟨call, answer⟩ :: history)

theorem Does.of_reaches {action : Action α} (h : action.Does may post)
    (hreaches : action.Reaches history) : ∀ step ∈ history, may step.call := by
  induction hreaches with
  | start => exact List.forall_mem_nil _
  | ask rest ih =>
    obtain ⟨hcall, hnext⟩ := h
    exact List.forall_mem_cons.mpr ⟨hcall, ih (hnext _)⟩

/-- What is left of an action after the calls of a history. -/
inductive Leaves : Action α → List Step → Action α → Prop where
  | start (action : Action α) : Leaves action [] action
  | ask {call : Call} {next : call.Answer → Action α} {answer : call.Answer}
      {history : List Step} {left : Action α} (rest : Leaves (next answer) history left) :
      Leaves (ask call next) (⟨call, answer⟩ :: history) left

theorem Leaves.next {action : Action α} {call : Call} {next : call.Answer → Action α}
    (h : action.Leaves history (Action.ask call next)) (answer : call.Answer) :
    action.Leaves (history ++ [⟨call, answer⟩]) (next answer) := by
  generalize hleft : Action.ask call next = left at h
  induction h with
  | start action =>
    subst hleft
    exact .ask (.start _)
  | ask rest ih => exact .ask (ih hleft)

theorem Leaves.runs {action : Action α} {result : α} (h : action.Leaves history (.done result)) :
    action.Runs history result := by
  generalize hleft : Action.done result = left at h
  induction h with
  | start action =>
    subst hleft
    exact .done result
  | ask rest ih => exact .ask (ih hleft)

theorem Runs.leaves {action : Action α} {result : α} (h : action.Runs history result) :
    action.Leaves history (.done result) := by
  induction h with
  | done result => exact .start _
  | ask rest ih => exact .ask ih

/-- What is left in the end is left of what is left in the middle. -/
theorem Leaves.split {action left : Action α} {first second : List Step}
    (h : action.Leaves (first ++ second) left) :
    ∃ middle, action.Leaves first middle ∧ middle.Leaves second left := by
  induction first generalizing action with
  | nil => exact ⟨action, .start action, h⟩
  | cons step first ih =>
    cases h with
    | ask rest =>
      obtain ⟨middle, hfirst, hsecond⟩ := ih rest
      exact ⟨middle, .ask hfirst, hsecond⟩

theorem Leaves.reaches {action left : Action α} (h : action.Leaves history left) :
    action.Reaches history := by
  induction h with
  | start action => exact .start action
  | ask rest ih => exact .ask ih

/-- One action after another is in the first, or the first has run and it is in the second. -/
theorem leaves_bind {action : Action α} {next : α → Action β} {left : Action β}
    (h : (action >>= next).Leaves history left) :
    (∃ rest, action.Leaves history rest ∧ left = rest >>= next) ∨
      ∃ first second result, history = first ++ second ∧ action.Runs first result ∧
        (next result).Leaves second left := by
  induction action generalizing history with
  | done result => exact .inr ⟨[], history, result, rfl, .done result, h⟩
  | ask call after ih =>
    cases h with
    | start => exact .inl ⟨.ask call after, .start _, rfl⟩
    | ask rest =>
      cases ih _ rest with
      | inl hfirst =>
        obtain ⟨left, hleaves, rfl⟩ := hfirst
        exact .inl ⟨left, .ask hleaves, rfl⟩
      | inr hsecond =>
        obtain ⟨first, second, result, rfl, hruns, hleaves⟩ := hsecond
        exact .inr ⟨_ :: first, second, result, rfl, .ask hruns, hleaves⟩

theorem Does.of_leaves {action left : Action α} (h : action.Does may post)
    (hleaves : action.Leaves history left) :
    (∀ step ∈ history, may step.call) ∧ left.Does may post := by
  induction hleaves with
  | start => exact ⟨List.forall_mem_nil _, h⟩
  | ask rest ih =>
    obtain ⟨hcall, hnext⟩ := h
    obtain ⟨hcalls, hleft⟩ := ih (hnext _)
    exact ⟨List.forall_mem_cons.mpr ⟨hcall, hcalls⟩, hleft⟩

/-- There is something to answer to every call. -/
theorem nonempty_answer (call : Call) : Nonempty call.Answer :=
  ⟨call.idle⟩

/-- Every action can be carried out. -/
theorem exists_runs (action : Action α) : ∃ history result, action.Runs history result := by
  induction action with
  | done result => exact ⟨[], result, .done result⟩
  | ask call next ih =>
    obtain ⟨history, result, hruns⟩ := ih call.idle
    exact ⟨⟨call, call.idle⟩ :: history, result, .ask hruns⟩

end Action

end ModbusMaster
