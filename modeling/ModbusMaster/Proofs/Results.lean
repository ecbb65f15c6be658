import Mathlib.Data.List.Forall2

/-!
Computations that may fail. A chain of them succeeds when each does; over a list, the first one
that fails decides.
-/

namespace ModbusMaster.Results

variable {ε α β : Type}

theorem bind_eq_ok_iff {result : Except ε α} {next : α → Except ε β} {value : β} :
    (result >>= next) = .ok value ↔ ∃ inner, result = .ok inner ∧ next inner = .ok value := by
  cases result with
  | ok inner => simp [bind, Except.bind]
  | error error => simp [bind, Except.bind]

theorem map_eq_ok_iff {result : Except ε α} {f : α → β} {value : β} :
    result.map f = .ok value ↔ ∃ inner, result = .ok inner ∧ f inner = value := by
  cases result <;> simp [Except.map]

theorem mapError_eq_ok_iff {ε' : Type} {result : Except ε α} {f : ε → ε'} {value : α} :
    result.mapError f = .ok value ↔ result = .ok value := by
  cases result <;> simp [Except.mapError]

theorem mapM_eq_ok_iff {f : α → Except ε β} {items : List α} {values : List β} :
    items.mapM f = .ok values ↔
      List.Forall₂ (fun item value => f item = .ok value) items values := by
  induction items generalizing values with
  | nil => cases values <;> simp [pure, Except.pure]
  | cons item items ih =>
    rw [List.mapM_cons, bind_eq_ok_iff]
    constructor
    · intro h
      obtain ⟨value, hitem, hrest⟩ := h
      obtain ⟨rest, hitems, hdone⟩ := bind_eq_ok_iff.mp hrest
      cases hdone
      exact .cons hitem (ih.mp hitems)
    · intro h
      cases h with
      | cons hitem hrest =>
        exact ⟨_, hitem, bind_eq_ok_iff.mpr ⟨_, ih.mpr hrest, rfl⟩⟩

/-- A list is refused because of the first of its items that is. -/
theorem mapM_eq_error_iff {f : α → Except ε β} {items : List α} {error : ε} :
    items.mapM f = .error error ↔ ∃ before item after, items = before ++ item :: after ∧
      (∀ earlier ∈ before, ∃ value, f earlier = .ok value) ∧ f item = .error error := by
  induction items with
  | nil => simp [pure, Except.pure]
  | cons item items ih =>
    rw [List.mapM_cons]
    cases hitem : f item with
    | error fault =>
      constructor
      · intro h
        cases h
        exact ⟨[], item, items, rfl, List.forall_mem_nil _, hitem⟩
      · intro h
        obtain ⟨before, refused, after, hsplit, hbefore, hrefused⟩ := h
        cases before with
        | nil =>
          cases hsplit
          rw [hitem] at hrefused
          cases hrefused
          rfl
        | cons first before =>
          cases hsplit
          obtain ⟨value, hvalue⟩ := hbefore item List.mem_cons_self
          rw [hitem] at hvalue
          cases hvalue
    | ok value =>
      have hrest : (Except.ok value >>= fun value => items.mapM f >>= fun values =>
          pure (value :: values)) = .error error ↔ items.mapM f = .error error := by
        cases items.mapM f <;> simp [bind, Except.bind, pure, Except.pure]
      rw [hrest, ih]
      constructor
      · intro h
        obtain ⟨before, refused, after, rfl, hbefore, hrefused⟩ := h
        exact ⟨item :: before, refused, after, rfl,
          List.forall_mem_cons.mpr ⟨⟨value, hitem⟩, hbefore⟩, hrefused⟩
      · intro h
        obtain ⟨before, refused, after, hsplit, hbefore, hrefused⟩ := h
        cases before with
        | nil =>
          cases hsplit
          rw [hitem] at hrefused
          cases hrefused
        | cons first before =>
          cases hsplit
          exact ⟨before, refused, after, rfl, (List.forall_mem_cons.mp hbefore).2, hrefused⟩

/-- A list is accepted if each of its items is. -/
theorem exists_mapM_eq_ok_iff {f : α → Except ε β} {items : List α} :
    (∃ values, items.mapM f = .ok values) ↔ ∀ item ∈ items, ∃ value, f item = .ok value := by
  constructor
  · intro h
    obtain ⟨values, hvalues⟩ := h
    induction mapM_eq_ok_iff.mp hvalues with
    | nil => exact List.forall_mem_nil _
    | cons hitem hrest ih =>
      exact List.forall_mem_cons.mpr ⟨⟨_, hitem⟩, ih (mapM_eq_ok_iff.mpr hrest)⟩
  · intro h
    cases hresult : items.mapM f with
    | ok values => exact ⟨values, rfl⟩
    | error error =>
      obtain ⟨before, item, after, rfl, -, hrefused⟩ := mapM_eq_error_iff.mp hresult
      obtain ⟨value, hvalue⟩ := h item (List.mem_append_right before List.mem_cons_self)
      rw [hrefused] at hvalue
      cases hvalue

end ModbusMaster.Results
