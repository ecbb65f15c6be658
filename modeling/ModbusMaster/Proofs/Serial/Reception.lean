import ModbusMaster.Serial.Incoming

/-!
What a read gets of the bytes that come in while it waits: the first of those that are there before
its deadline. When it has all that it asks for, it ends at once, and the rest is left for the next
read.
-/

namespace ModbusMaster.Serial

/-- When each of several parts comes in, one so long after the other. -/
def timed (start : Instant) : List (Duration × Bytes) → List (Instant × Bytes)
  | [] => []
  | (gap, chunk) :: later => (start + gap, chunk) :: timed (start + gap) later

/-- The bytes that come in before a deadline. -/
def before (deadline : Instant) (arrivals : List (Instant × Bytes)) : Bytes :=
  (arrivals.filter (·.1 < deadline)).flatMap (·.2)

/-- When `count` bytes are in, of which some wait already. -/
def whenIn (count : Nat) (now : Instant) (waiting : Bytes) : List (Instant × Bytes) → Instant
  | [] => now
  | (time, chunk) :: later =>
      if count ≤ waiting.length then now else whenIn (count - waiting.length) time chunk later

/-- Every part comes in no earlier than the one before it, the first one not before `start`. -/
def InOrder (start : Instant) : List (Instant × Bytes) → Prop
  | [] => True
  | (time, _) :: later => start ≤ time ∧ InOrder time later

variable {start now deadline time : Instant} {chunk waiting : Bytes}
  {arrivals later : List (Instant × Bytes)} {reading : Reading} {hangUp : Option Instant}

theorem inOrder_timed (start : Instant) (parts : List (Duration × Bytes)) :
    InOrder start (timed start parts) := by
  induction parts generalizing start with
  | nil => trivial
  | cons part later ih => exact ⟨Nat.le_add_right start part.1, ih _⟩

theorem before_eq_nil (h : InOrder now arrivals) (hle : deadline ≤ now) :
    before deadline arrivals = [] := by
  induction arrivals generalizing now with
  | nil => rfl
  | cons arrival later ih =>
    obtain ⟨hfirst, hlater⟩ := h
    have hlate : ¬ arrival.1 < deadline := Nat.not_lt.mpr (Nat.le_trans hle hfirst)
    rw [before, List.filter_cons_of_neg (by simpa using hlate)]
    exact ih hlater (Nat.le_trans hle hfirst)

theorem before_cons_of_lt (h : time < deadline) :
    before deadline ((time, chunk) :: later) = chunk ++ before deadline later := by
  rw [before, List.filter_cons_of_pos (by simpa using h), List.flatMap_cons]
  rfl

theorem before_append (a b : List (Instant × Bytes)) :
    before deadline (a ++ b) = before deadline a ++ before deadline b := by
  rw [before, List.filter_append, List.flatMap_append]
  rfl

theorem before_eq_flatMap (h : ∀ arrival ∈ arrivals, arrival.1 < deadline) :
    before deadline arrivals = arrivals.flatMap (·.2) := by
  rw [before, List.filter_eq_self.mpr]
  simpa using h

namespace Reading

variable {incoming : Incoming}

theorem isOver_iff : reading.isOver incoming now = true ↔
    reading.lacking = 0 ∨ incoming.hungUp = true ∨ reading.deadline ≤ now := by
  simp [isOver, or_assoc]

theorem isOver_eq_false_iff : reading.isOver incoming now = false ↔
    reading.lacking ≠ 0 ∧ incoming.hungUp = false ∧ now < reading.deadline := by
  simp [isOver, and_assoc]

/-! ### What a read takes -/

theorem take_of_nil (h : incoming.waiting = []) : reading.take incoming = (reading, incoming) := by
  cases incoming
  cases h
  simp [take]

theorem length_take : (reading.take incoming).1.got.length + (reading.take incoming).1.lacking =
    reading.got.length + reading.lacking := by
  simp only [take, List.length_append, List.length_take]
  omega

/-- A read that lacks bytes has left none. -/
theorem waiting_take (h : (reading.take incoming).1.lacking ≠ 0) :
    (reading.take incoming).2.waiting = [] := by
  have hlacking : reading.lacking - incoming.waiting.length ≠ 0 := h
  exact List.drop_eq_nil_of_le (by omega)

/-- A read has the first of what there is, as much as it is for. -/
theorem got_take {count : Nat} (h : reading.got.length + reading.lacking = count) :
    let (taken, rest) := reading.take incoming
    taken.got =
      (taken.got ++ rest.waiting).take (min count (taken.got ++ rest.waiting).length) := by
  have hlength : (reading.take incoming).1.got.length + (reading.take incoming).1.lacking = count :=
    length_take.trans h
  dsimp only
  by_cases hlacks : (reading.take incoming).1.lacking = 0
  · rw [List.length_append, Nat.min_eq_left (by omega), List.take_left' (by omega)]
  · rw [waiting_take hlacks, List.append_nil, Nat.min_eq_right (by omega), List.take_length]

/-! ### How a read ends -/

theorem follow_of_over (h : (reading.take incoming).1.isOver (reading.take incoming).2 now = true) :
    follow hangUp now reading incoming arrivals =
      ⟨(reading.take incoming).1.got, now, (reading.take incoming).2, arrivals⟩ := by
  cases arrivals with
  | nil =>
    rw [follow]
    dsimp only
    rw [if_pos h]
  | cons arrival later =>
    rw [follow]
    dsimp only
    rw [if_pos h]

theorem follow_nil_of_open
    (h : (reading.take incoming).1.isOver (reading.take incoming).2 now = false) :
    follow hangUp now reading incoming [] =
      ⟨(reading.take incoming).1.got, (reading.take incoming).1.endTime hangUp now,
        (reading.take incoming).2, []⟩ := by
  rw [follow]
  dsimp only
  rw [if_neg (Bool.eq_false_iff.mp h)]

theorem follow_cons_of_open
    (h : (reading.take incoming).1.isOver (reading.take incoming).2 now = false) :
    follow hangUp now reading incoming ((time, chunk) :: later) =
      if time < reading.deadline then
        follow hangUp (max now time) (reading.take incoming).1
          ((reading.take incoming).2.arrive chunk) later
      else ⟨(reading.take incoming).1.got, reading.deadline, (reading.take incoming).2,
        (time, chunk) :: later⟩ := by
  rw [follow]
  dsimp only
  rw [if_neg (Bool.eq_false_iff.mp h)]
  rfl

/-- A read that finds all that it asks for does not wait. -/
theorem follow_of_le (h : reading.lacking ≤ waiting.length) :
    follow hangUp now reading { waiting } arrivals =
      ⟨reading.got ++ waiting.take reading.lacking, now,
        { waiting := waiting.drop reading.lacking }, arrivals⟩ :=
  follow_of_over (isOver_iff.mpr (.inl (Nat.sub_eq_zero_of_le h)))

/-- A read that has taken all the bytes there were. -/
def took (reading : Reading) (bytes : Bytes) : Reading :=
  { reading with got := reading.got ++ bytes, lacking := reading.lacking - bytes.length }

theorem follow_cons (hlacking : waiting.length < reading.lacking) (hnow : now ≤ time)
    (htime : time < reading.deadline) :
    follow hangUp now reading { waiting } ((time, chunk) :: later) =
      follow hangUp time (reading.took waiting) { waiting := chunk } later := by
  have hopen : (reading.take { waiting }).1.isOver (reading.take { waiting }).2 now = false :=
    isOver_eq_false_iff.mpr
      ⟨Nat.sub_ne_zero_of_lt hlacking, rfl, Nat.lt_of_le_of_lt hnow htime⟩
  have htake : waiting.take reading.lacking = waiting :=
    List.take_of_length_le (Nat.le_of_lt hlacking)
  have hdrop : waiting.drop reading.lacking = [] := List.drop_eq_nil_of_le (Nat.le_of_lt hlacking)
  rw [follow_cons_of_open hopen, if_pos htime, Nat.max_eq_right hnow]
  simp only [take, took, htake, hdrop, Incoming.arrive, Bool.false_eq_true, if_false,
    List.nil_append]

theorem follow_of_late (hlacking : waiting.length < reading.lacking)
    (horder : InOrder reading.deadline arrivals) :
    (follow hangUp now reading { waiting } arrivals).bytes = reading.got ++ waiting := by
  have htake : (reading.take { waiting }).1.got = reading.got ++ waiting :=
    congrArg (reading.got ++ ·) (List.take_of_length_le (Nat.le_of_lt hlacking))
  cases hover : (reading.take { waiting }).1.isOver (reading.take { waiting }).2 now with
  | true =>
    rw [follow_of_over hover]
    exact htake
  | false =>
    cases arrivals with
    | nil =>
      rw [follow_nil_of_open hover]
      exact htake
    | cons arrival later =>
      rw [follow_cons_of_open hover, if_neg (Nat.not_lt.mpr horder.1)]
      exact htake

/-- A read that got all that it asked for, `passed` being what came in meanwhile. -/
structure Filled (reading : Reading) (now : Instant) (waiting : Bytes)
    (arrivals passed : List (Instant × Bytes)) (ending : Ending) : Prop where
  split : arrivals = passed ++ ending.arrivals
  intime : ∀ arrival ∈ passed, arrival.1 < reading.deadline
  enough : reading.lacking ≤ (waiting ++ passed.flatMap (·.2)).length
  bytes : ending.bytes = reading.got ++ (waiting ++ passed.flatMap (·.2)).take reading.lacking
  rest : ending.rest = { waiting := (waiting ++ passed.flatMap (·.2)).drop reading.lacking }
  finished : ending.finished = whenIn reading.lacking now waiting arrivals
  later : now ≤ ending.finished
  order : InOrder ending.finished ending.arrivals

theorem filled_of_le (horder : InOrder now arrivals) (h : reading.lacking ≤ waiting.length) :
    Filled reading now waiting arrivals [] (follow hangUp now reading { waiting } arrivals) := by
  have hfinished : whenIn reading.lacking now waiting arrivals = now := by
    cases arrivals with
    | nil => rfl
    | cons => rw [whenIn, if_pos h]
  rw [follow_of_le h]
  refine ⟨rfl, List.forall_mem_nil _, ?_, ?_, ?_, hfinished.symm, Nat.le_refl now, horder⟩
  · rwa [List.flatMap_nil, List.append_nil]
  · rw [List.flatMap_nil, List.append_nil]
  · rw [List.flatMap_nil, List.append_nil]

/-- What comes in before a later deadline came in during the read or is still to come. -/
theorem Filled.before_eq {passed : List (Instant × Bytes)} {ending : Ending}
    (h : Filled reading now waiting arrivals passed ending) (hle : reading.deadline ≤ deadline) :
    before deadline arrivals = passed.flatMap (·.2) ++ before deadline ending.arrivals := by
  have hintime : ∀ arrival ∈ passed, arrival.1 < deadline :=
    fun arrival hmem => Nat.lt_of_lt_of_le (h.intime arrival hmem) hle
  rw [h.split, before_append, before_eq_flatMap hintime]

theorem Filled.of_took {passed : List (Instant × Bytes)} {ending : Ending}
    (h : Filled (reading.took waiting) time chunk later passed ending)
    (hlacking : waiting.length < reading.lacking) (hnow : now ≤ time)
    (htime : time < reading.deadline) :
    Filled reading now waiting ((time, chunk) :: later) ((time, chunk) :: passed) ending := by
  have hall : waiting ++ ((time, chunk) :: passed).flatMap (·.2) =
      waiting ++ (chunk ++ passed.flatMap (·.2)) := by rw [List.flatMap_cons]
  have htake : waiting.take reading.lacking = waiting :=
    List.take_of_length_le (Nat.le_of_lt hlacking)
  have hdrop : waiting.drop reading.lacking = [] := List.drop_eq_nil_of_le (Nat.le_of_lt hlacking)
  have henough : reading.lacking - waiting.length ≤ (chunk ++ passed.flatMap (·.2)).length :=
    h.enough
  refine ⟨?_, ?_, ?_, ?_, ?_, ?_, Nat.le_trans hnow h.later, h.order⟩
  · rw [List.cons_append, ← h.split]
  · exact List.forall_mem_cons.mpr ⟨htime, h.intime⟩
  · rw [hall, List.length_append]
    omega
  · rw [hall, List.take_append, htake, h.bytes, took, List.append_assoc]
  · rw [hall, List.drop_append, hdrop, h.rest, took, List.nil_append]
  · rw [h.finished, whenIn, if_neg (Nat.not_le.mpr hlacking)]
    rfl

/-- A read for which enough comes in before its deadline ends as soon as that is in. -/
theorem follow_filled (hangUp : Option Instant) (horder : InOrder now arrivals)
    (henough : reading.lacking ≤ (waiting ++ before reading.deadline arrivals).length) :
    ∃ passed, Filled reading now waiting arrivals passed
      (follow hangUp now reading { waiting } arrivals) := by
  -- each part that comes in is what waits for the rest of the read, which lacks that much less
  induction arrivals generalizing now reading waiting with
  | nil =>
    rw [before, List.filter_nil, List.flatMap_nil, List.append_nil] at henough
    exact ⟨[], filled_of_le horder henough⟩
  | cons arrival later ih =>
    obtain ⟨time, chunk⟩ := arrival
    by_cases hlacking : reading.lacking ≤ waiting.length
    · exact ⟨[], filled_of_le horder hlacking⟩
    · have hless : waiting.length < reading.lacking := Nat.lt_of_not_le hlacking
      have htime : time < reading.deadline := by
        refine Nat.lt_of_not_le fun hlate => ?_
        -- nothing that comes in at the deadline or later counts
        have hnone : before reading.deadline ((time, chunk) :: later) = [] :=
          before_eq_nil ⟨Nat.le_refl time, horder.2⟩ hlate
        rw [hnone, List.append_nil] at henough
        exact hlacking henough
      rw [before_cons_of_lt htime, List.length_append] at henough
      have hrest : (reading.took waiting).lacking ≤
          (chunk ++ before (reading.took waiting).deadline later).length :=
        Nat.sub_le_iff_le_add'.mpr henough
      obtain ⟨passed, h⟩ := ih horder.2 hrest
      rw [follow_cons hless horder.1 htime]
      exact ⟨(time, chunk) :: passed, h.of_took hless horder.1 htime⟩

/-- A read for which too little comes in gives all that does before its deadline. -/
theorem follow_short (hangUp : Option Instant) (horder : InOrder now arrivals)
    (hshort : (waiting ++ before reading.deadline arrivals).length < reading.lacking) :
    (follow hangUp now reading { waiting } arrivals).bytes =
      reading.got ++ (waiting ++ before reading.deadline arrivals) := by
  have hless : waiting.length < reading.lacking := by
    rw [List.length_append] at hshort
    omega
  induction arrivals generalizing now reading waiting with
  | nil =>
    have hnone : before reading.deadline [] = [] := rfl
    have hlate : InOrder reading.deadline [] := trivial
    rw [follow_of_late hless hlate, hnone, List.append_nil]
  | cons arrival later ih =>
    obtain ⟨time, chunk⟩ := arrival
    by_cases htime : time < reading.deadline
    · rw [before_cons_of_lt htime] at hshort ⊢
      have hrest : (chunk ++ before (reading.took waiting).deadline later).length <
          (reading.took waiting).lacking := by
        rw [List.length_append] at hshort
        exact Nat.lt_sub_iff_add_lt'.mpr hshort
      have hchunk : chunk.length < (reading.took waiting).lacking := by
        rw [List.length_append] at hrest
        omega
      rw [follow_cons hless horder.1 htime, ih horder.2 hrest hchunk]
      simp only [took, List.append_assoc]
    · -- this part is too late, and so are those behind it
      have hlate : InOrder reading.deadline ((time, chunk) :: later) :=
        ⟨Nat.le_of_not_lt htime, horder.2⟩
      rw [follow_of_late hless hlate, before_eq_nil hlate (Nat.le_refl _), List.append_nil]

/-- A read gives the first of the bytes that wait or come in before its deadline. -/
theorem follow_bytes (hangUp : Option Instant) (horder : InOrder now arrivals) :
    (follow hangUp now reading { waiting } arrivals).bytes =
      reading.got ++ (waiting ++ before reading.deadline arrivals).take reading.lacking := by
  by_cases henough : reading.lacking ≤ (waiting ++ before reading.deadline arrivals).length
  · obtain ⟨passed, h⟩ := follow_filled hangUp horder henough
    rw [h.bytes, h.before_eq (Nat.le_refl _), ← List.append_assoc,
      List.take_append_of_le_length h.enough]
  · have hshort := Nat.lt_of_not_le henough
    rw [follow_short hangUp horder hshort, List.take_of_length_le (Nat.le_of_lt hshort)]

end Reading
end ModbusMaster.Serial
