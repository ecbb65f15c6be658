import ModbusMaster.Bytes
import ModbusMaster.Time

/-!
Bytes that come in on a serial line, and what a read with a deadline makes of them. A read takes
what it lacks from the bytes that wait, and goes on until it has all that it asks for, until the
far end has hung up, or until its deadline, however slowly bytes come in. Bytes beyond what it
asks for stay. `Reading.follow` puts the parts together for a read on which bytes arrive at known
times; `Reading.follow_conserves` says that no byte is lost or doubled.
-/

namespace ModbusMaster.Serial

/-- The near end of a serial line. -/
structure Incoming where
  /-- Bytes that have arrived and were not read yet. -/
  waiting : Bytes := []
  /-- Whether the far end has hung up; nothing arrives after that. -/
  hungUp : Bool := false
  deriving DecidableEq

namespace Incoming

/-- What a read of up to `count` bytes gives without waiting: bytes that wait, or none at the end
after the far end has hung up. Nothing if it would have to wait. -/
def poll (incoming : Incoming) (count : Nat) : Option Bytes × Incoming :=
  if incoming.waiting = [] then (if incoming.hungUp then some [] else none, incoming)
  else
    (some (incoming.waiting.take count),
      { incoming with waiting := incoming.waiting.drop count })

/-- A read that gives bytes leaves fewer. -/
theorem length_lt_of_poll {incoming rest : Incoming} {count : Nat} {byte : UInt8} {bytes : Bytes}
    (h : incoming.poll count = (some (byte :: bytes), rest)) :
    rest.waiting.length < incoming.waiting.length := by
  unfold poll at h
  split at h
  next =>
    split at h
    · cases (Prod.mk.inj h).1
    · cases (Prod.mk.inj h).1
  next =>
    obtain ⟨htake, rfl⟩ := Prod.mk.inj h
    have hlength := congrArg List.length (Option.some.inj htake)
    rw [List.length_take, List.length_cons] at hlength
    rw [List.length_drop]
    omega

/-- How many bytes are dropped at a time. -/
def flushSize : Nat := 64

/-- Drops everything that has arrived, by reads that do not wait, until one gives no bytes. -/
def flush (incoming : Incoming) : Incoming :=
  match _ : incoming.poll flushSize with
  | (some (_ :: _), rest) => rest.flush
  | (_, rest) => rest
termination_by incoming.waiting.length
decreasing_by exact length_lt_of_poll ‹_›

/-- Nothing is left of what waited, however much it was. -/
theorem flush_eq (incoming : Incoming) : incoming.flush = { incoming with waiting := [] } := by
  fun_induction flush with
  | case1 incoming byte bytes rest h ih =>
    have hrest : rest.hungUp = incoming.hungUp := by
      unfold poll at h
      split at h <;> obtain ⟨-, rfl⟩ := Prod.mk.inj h <;> rfl
    rw [ih, hrest]
  | case2 incoming got rest hnone h =>
    unfold poll at h
    split at h
    next hwaiting =>
      obtain ⟨-, rfl⟩ := Prod.mk.inj h
      rw [← hwaiting]
    next hwaiting =>
      -- a read of bytes that wait gives at least one of them
      obtain ⟨byte, bytes, hcons⟩ := List.exists_cons_of_ne_nil hwaiting
      obtain ⟨hgot, -⟩ := Prod.mk.inj h
      rw [hcons] at hgot
      exact (hnone byte (bytes.take 63) hgot.symm).elim

/-- Lets bytes arrive. -/
def arrive (incoming : Incoming) (bytes : Bytes) : Incoming :=
  if incoming.hungUp then incoming else { incoming with waiting := incoming.waiting ++ bytes }

end Incoming

/-- A read that is under way. -/
structure Reading where
  got : Bytes := []
  /-- How many bytes it still lacks. -/
  lacking : Nat
  /-- When it gives up. -/
  deadline : Instant
  deriving DecidableEq

/-- The end of a read. -/
structure Ending where
  bytes : Bytes
  /-- When the read ended. -/
  finished : Instant
  rest : Incoming
  /-- Bytes that had not arrived by then. -/
  arrivals : List (Instant × Bytes)
  deriving DecidableEq

namespace Reading

/-- A read of up to `count` bytes that starts now and waits no longer than the timeout. Its deadline
is taken to be before `Instant.limit`. -/
def start (now : Instant) (timeout : Duration) (count : Nat) : Reading where
  lacking := count
  deadline := now + timeout

/-- Takes what the read lacks from the bytes that wait. -/
def take (reading : Reading) (incoming : Incoming) : Reading × Incoming :=
  ({ reading with
      got := reading.got ++ incoming.waiting.take reading.lacking
      lacking := reading.lacking - incoming.waiting.length },
    { incoming with waiting := incoming.waiting.drop reading.lacking })

/-- Whether a read that has taken what there was ends now. -/
def isOver (reading : Reading) (incoming : Incoming) (now : Instant) : Bool :=
  reading.lacking = 0 || incoming.hungUp || reading.deadline ≤ now

/-- When a read ends that gets nothing more: when the far end hangs up, or at the deadline. -/
def endTime (reading : Reading) (hangUp : Option Instant) (now : Instant) : Instant :=
  match hangUp with
  | some time => if time < reading.deadline then max now time else reading.deadline
  | none => reading.deadline

/-- Follows a read to its end while bytes arrive, each chunk at its time and in order; the far end
may hang up when all have arrived. What arrives at the deadline comes too late. -/
def follow (hangUp : Option Instant) (now : Instant) (reading : Reading) (incoming : Incoming) :
    List (Instant × Bytes) → Ending
  | [] =>
      let (taken, rest) := reading.take incoming
      if taken.isOver rest now then ⟨taken.got, now, rest, []⟩
      else ⟨taken.got, taken.endTime hangUp now, rest, []⟩
  | (time, chunk) :: later =>
      let (taken, rest) := reading.take incoming
      if taken.isOver rest now then ⟨taken.got, now, rest, (time, chunk) :: later⟩
      else if time < taken.deadline then
        follow hangUp (max now time) taken (rest.arrive chunk) later
      else ⟨taken.got, taken.deadline, rest, (time, chunk) :: later⟩

/-- Taking neither loses nor doubles a byte. -/
theorem take_conserves (reading : Reading) (incoming : Incoming) :
    (reading.take incoming).1.got ++ (reading.take incoming).2.waiting =
      reading.got ++ incoming.waiting := by
  simp [take]

/-- No byte is lost or doubled by a read: what it returns, what stays and what had not arrived are
what was there. -/
theorem follow_conserves (hangUp : Option Instant) (now : Instant) (reading : Reading)
    (incoming : Incoming) (arrivals : List (Instant × Bytes)) :
    let ending := follow hangUp now reading incoming arrivals
    ending.bytes ++ ending.rest.waiting ++ ending.arrivals.flatMap (·.2) =
      reading.got ++ incoming.waiting ++ arrivals.flatMap (·.2) := by
  induction arrivals generalizing now reading incoming with
  | nil =>
    have taken := take_conserves reading incoming
    simp only [follow]
    split <;> simpa using taken
  | cons arrival later ih =>
    obtain ⟨time, chunk⟩ := arrival
    have taken := take_conserves reading incoming
    simp only [follow]
    split
    · simp [taken]
    · rename_i notOver
      split
      · have isOpen : (reading.take incoming).2.hungUp = false := by
          simp only [isOver, Bool.or_eq_true, not_or, Bool.not_eq_true] at notOver
          exact notOver.1.2
        have rest := ih (max now time) (reading.take incoming).1
          ((reading.take incoming).2.arrive chunk)
        simp only [Incoming.arrive, isOpen] at rest
        simpa [Incoming.arrive, isOpen, ← taken] using rest
      · simp [taken]

end Reading

end ModbusMaster.Serial
