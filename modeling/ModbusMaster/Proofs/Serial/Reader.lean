import Mathlib.Data.List.Basic
import Mathlib.Data.List.Flatten
import Mathlib.Logic.Relation
import Mathlib.Order.Bounds.Defs
import ModbusMaster.Proofs.Serial.Reception

/-!
One read after the other on a line on which bytes come in when they will, until the far end hangs
up. A reader is woken when bytes have come in, when the far end has hung up and at the deadline of
the read that is under way, and no time passes before it has seen to that. What comes in at the
very instant of a deadline may do so before the reader is woken or after that.

`Reader.Sound` is what every move keeps. `Intake.Exact` says of a read that has ended what it gave
and when, by all that has ever come in, and `Reader.exists_ending` that every read can end.
-/

namespace ModbusMaster.Serial

/-- What has come in on a line, and when. -/
structure Intake where
  arrivals : List (Instant × Bytes) := []
  /-- When the far end has hung up. -/
  hangUp : Option Instant := none
  deriving DecidableEq

/-- What a read was asked for. -/
structure Wish where
  begun : Instant
  count : Nat
  deriving DecidableEq

/-- A read for which the reader waits. -/
structure Pending where
  wish : Wish
  /-- How often the reader was woken and went on waiting. -/
  rounds : Nat := 0
  reading : Reading
  deriving DecidableEq

/-- A read that has ended. -/
structure Completed where
  wish : Wish
  /-- How often the reader was woken. -/
  rounds : Nat
  ended : Instant
  bytes : Bytes
  deriving DecidableEq

structure Reader where
  clock : Instant := 0
  incoming : Incoming := {}
  intake : Intake := {}
  completed : List Completed := []
  pending : Option Pending := none
  deriving DecidableEq

namespace Intake

def bytes (intake : Intake) : Bytes :=
  intake.arrivals.flatMap (·.2)

/-- How many bytes came in before an instant, apart from those that had been read already. -/
def fresh (intake : Intake) (passed : Nat) (deadline : Instant) : Nat :=
  (before deadline intake.arrivals).length - passed

def arrive (intake : Intake) (time : Instant) (chunk : Bytes) : Intake :=
  { intake with arrivals := intake.arrivals ++ [(time, chunk)] }

/-- A read need not wait any longer: all that it asks for is in, or the far end has hung up, or its
time is over. -/
def Due (intake : Intake) (timeout : Duration) (passed : Nat) (wish : Wish) (time : Instant) :
    Prop :=
  wish.begun ≤ time ∧ (wish.count ≤ intake.fresh passed (time + 1) ∨
    (∃ hungUp ∈ intake.hangUp, hungUp ≤ time) ∨ wish.begun + timeout ≤ time)

/-- A read gave the first of the bytes that had not been read before and came in before its
deadline, with maybe some of those that came in at the deadline, and it ended as soon as it
could. -/
structure Exact (intake : Intake) (timeout : Duration) (passed : Nat) (read : Completed) :
    Prop where
  bytes : ∃ intime, intake.fresh passed (read.wish.begun + timeout) ≤ intime ∧
    intime ≤ intake.fresh passed (read.wish.begun + timeout + 1) ∧
    read.bytes = (intake.bytes.drop passed).take (min read.wish.count intime)
  ended : IsLeast {time | intake.Due timeout passed read.wish time} read.ended
  rounds : read.rounds ≤ max read.wish.count 1

variable {intake : Intake} {timeout : Duration} {passed time clock deadline : Nat} {wish : Wish}
  {chunk : Bytes} {read : Completed}

/-! ### What comes in later -/

theorem bytes_arrive : (intake.arrive time chunk).bytes = intake.bytes ++ chunk := by
  rw [bytes, arrive, List.flatMap_append, List.flatMap_singleton]
  rfl

theorem fresh_mono (intake : Intake) (passed : Nat) (h : deadline ≤ time) :
    intake.fresh passed deadline ≤ intake.fresh passed time := by
  have hsublist : List.Sublist (intake.arrivals.filter (·.1 < deadline))
      (intake.arrivals.filter (·.1 < time)) :=
    List.monotone_filter_right _ fun arrival hearly =>
      decide_eq_true (Nat.lt_of_lt_of_le (of_decide_eq_true hearly) h)
  exact Nat.sub_le_sub_right (hsublist.flatMap _).length_le passed

theorem fresh_le (intake : Intake) (passed : Nat) (deadline : Instant) :
    intake.fresh passed deadline ≤ intake.bytes.length - passed :=
  Nat.sub_le_sub_right (List.filter_sublist.flatMap _).length_le passed

theorem fresh_le_arrive : intake.fresh passed deadline ≤
    (intake.arrive clock chunk).fresh passed deadline := by
  rw [fresh, fresh, arrive, before_append, List.length_append]
  exact Nat.sub_le_sub_right (Nat.le_add_right _ _) passed

theorem fresh_arrive (h : deadline ≤ clock) :
    (intake.arrive clock chunk).fresh passed deadline = intake.fresh passed deadline := by
  have hnone : before deadline [(clock, chunk)] = [] :=
    before_eq_nil ⟨Nat.le_refl clock, trivial⟩ h
  rw [fresh, fresh, arrive, before_append, hnone, List.append_nil]

theorem Due.arrive (h : intake.Due timeout passed wish time) :
    (intake.arrive clock chunk).Due timeout passed wish time :=
  ⟨h.1, h.2.imp_left fun henough => Nat.le_trans henough fresh_le_arrive⟩

theorem Due.of_arrive (h : (intake.arrive clock chunk).Due timeout passed wish time)
    (hearly : time < clock) : intake.Due timeout passed wish time := by
  rw [Due, fresh_arrive hearly] at h
  exact h

theorem Due.hangUp (h : intake.Due timeout passed wish time) (hopen : intake.hangUp = none) :
    Due { intake with hangUp := some clock } timeout passed wish time := by
  refine ⟨h.1, h.2.imp_right (Or.imp_left fun hhungUp => ?_)⟩
  rw [hopen] at hhungUp
  obtain ⟨_, hnone, -⟩ := hhungUp
  cases hnone

theorem Due.of_hangUp (h : Due { intake with hangUp := some clock } timeout passed wish time)
    (hearly : time < clock) : intake.Due timeout passed wish time := by
  refine ⟨h.1, h.2.imp_right (Or.imp_left fun hhungUp => ?_)⟩
  obtain ⟨hungUp, hmem, hle⟩ := hhungUp
  cases Option.some.inj hmem
  exact absurd hearly (Nat.not_lt.mpr hle)

/-- What comes to be due from some time on does not change which instant was the first one before
that. -/
theorem isLeast_of_later {due due' : Nat → Prop} {ended : Nat}
    (h : IsLeast {time | due time} ended) (hle : ended ≤ clock)
    (hkept : ∀ time, due time → due' time) (hsame : ∀ time, due' time → time < clock → due time) :
    IsLeast {time | due' time} ended := by
  refine ⟨hkept _ h.1, fun time hdue => ?_⟩
  by_cases hearly : time < clock
  · exact h.2 (hsame time hdue hearly)
  · exact Nat.le_trans hle (Nat.le_of_not_lt hearly)

theorem Exact.hangUp (h : intake.Exact timeout passed read) (hopen : intake.hangUp = none)
    (hle : read.ended ≤ clock) :
    Exact { intake with hangUp := some clock } timeout passed read where
  bytes := h.bytes
  ended := isLeast_of_later h.ended hle (fun _ hdue => hdue.hangUp hopen)
    fun _ hdue => hdue.of_hangUp
  rounds := h.rounds

/-- A read that ended before its deadline, while the line was open, got all that it asked for. -/
theorem Due.enough (h : intake.Due timeout passed wish time) (hopen : intake.hangUp = none)
    (hearly : time < wish.begun + timeout) :
    wish.count ≤ intake.fresh passed (wish.begun + timeout) := by
  obtain henough | ⟨hungUp, hmem, -⟩ | hlate := h.2
  · exact Nat.le_trans henough (intake.fresh_mono passed hearly)
  · rw [hopen] at hmem
    cases hmem
  · exact absurd hearly (Nat.not_lt.mpr hlate)

theorem take_drop_append {bytes new : Bytes} {limit : Nat} (h : limit ≤ bytes.length - passed) :
    ((bytes ++ new).drop passed).take limit = (bytes.drop passed).take limit := by
  rw [List.drop_append, List.take_append_of_le_length (by rwa [List.length_drop])]

theorem Exact.arrive (h : intake.Exact timeout passed read) (hopen : intake.hangUp = none)
    (hle : read.ended ≤ clock) : (intake.arrive clock chunk).Exact timeout passed read where
  bytes := by
    obtain ⟨intime, hlow, hhigh, hbytes⟩ := h.bytes
    let after := intake.arrive clock chunk
    let deadline := read.wish.begun + timeout
    have hhigh' : intime ≤ after.fresh passed (deadline + 1) :=
      Nat.le_trans hhigh fresh_le_arrive
    -- more comes in before the deadline only if the read has got all that it asked for
    have hsame : min read.wish.count (max intime (after.fresh passed deadline)) =
        min read.wish.count intime := by
      by_cases hover : deadline ≤ clock
      · rw [fresh_arrive hover, Nat.max_eq_left hlow]
      · have henough := h.ended.1.enough hopen
          (Nat.lt_of_le_of_lt hle (Nat.lt_of_not_le hover))
        have hgot : read.wish.count ≤ intime := Nat.le_trans henough hlow
        rw [Nat.min_eq_left hgot, Nat.min_eq_left (Nat.le_trans hgot (Nat.le_max_left _ _))]
    refine ⟨max intime (after.fresh passed deadline), Nat.le_max_right _ _,
      Nat.max_le.mpr ⟨hhigh', after.fresh_mono passed (Nat.le_succ deadline)⟩, ?_⟩
    have hin : min read.wish.count intime ≤ intake.bytes.length - passed :=
      Nat.le_trans (Nat.min_le_right _ _) (Nat.le_trans hhigh (intake.fresh_le passed _))
    rw [hsame, hbytes, bytes_arrive, take_drop_append hin]
  ended := isLeast_of_later h.ended hle (fun _ => Due.arrive) fun _ hdue => hdue.of_arrive
  rounds := h.rounds

/-- All that came in did so before an instant. -/
theorem fresh_eq (passed : Nat) (h : ∀ arrival ∈ intake.arrivals, arrival.1 < time) :
    intake.fresh passed time = intake.bytes.length - passed := by
  rw [fresh, before_eq_flatMap h]
  rfl

end Intake

namespace Reader

variable {reader : Reader} {timeout : Duration}

/-- What the reads have given that have ended. -/
def returned (reader : Reader) : Bytes :=
  reader.completed.flatMap (·.bytes)

/-- What the read under way has got so far. -/
def got (reader : Reader) : Bytes :=
  reader.pending.elim [] (·.reading.got)

def arrive (reader : Reader) (chunk : Bytes) : Reader :=
  { reader with
    incoming := reader.incoming.arrive chunk
    intake := reader.intake.arrive reader.clock chunk }

def hangUp (reader : Reader) : Reader :=
  { reader with
    incoming := { reader.incoming with hungUp := true }
    intake := { reader.intake with hangUp := some reader.clock } }

/-- Begins a read. -/
def ask (reader : Reader) (timeout : Duration) (count : Nat) : Reader :=
  { reader with
    pending := some {
      wish := ⟨reader.clock, count⟩
      reading := .start reader.clock timeout count } }

/-- The reader when a read has taken what waits and goes on waiting, woken so often by now. -/
def goOn (reader : Reader) (pending : Pending) (rounds : Nat) : Reader :=
  { reader with
    incoming := (pending.reading.take reader.incoming).2
    pending := some ⟨pending.wish, rounds, (pending.reading.take reader.incoming).1⟩ }

/-- A read that takes what waits and ends. -/
def result (reader : Reader) (pending : Pending) : Completed where
  wish := pending.wish
  rounds := pending.rounds + 1
  ended := reader.clock
  bytes := (pending.reading.take reader.incoming).1.got

/-- The reader when a read takes what waits and ends. -/
def finish (reader : Reader) (pending : Pending) : Reader :=
  { reader with
    incoming := (pending.reading.take reader.incoming).2
    pending := none
    completed := reader.completed ++ [reader.result pending] }

/-- Whether a read ends when it is woken. -/
def endsNow (reader : Reader) (pending : Pending) : Bool :=
  (pending.reading.take reader.incoming).1.isOver (pending.reading.take reader.incoming).2
    reader.clock

/-- Wakes the read under way. -/
def wake (reader : Reader) : Reader :=
  match reader.pending with
  | none => reader
  | some pending =>
      if reader.endsNow pending then reader.finish pending
      else reader.goOn pending (pending.rounds + 1)

/-- There is nothing that the read under way could do now. -/
def IsIdle (reader : Reader) : Prop :=
  ∀ pending ∈ reader.pending,
    reader.incoming.waiting = [] ∧ pending.reading.isOver reader.incoming reader.clock = false

instance (reader : Reader) : Decidable reader.IsIdle :=
  inferInstanceAs (Decidable (∀ pending ∈ reader.pending, _))

/-- What can happen next. -/
inductive Moves (timeout : Duration) (reader : Reader) : Reader → Prop where
  | arrives (chunk : Bytes) (isOpen : reader.incoming.hungUp = false) :
      Moves timeout reader (reader.arrive chunk)
  | hangsUp (isOpen : reader.incoming.hungUp = false) : Moves timeout reader reader.hangUp
  | asks (count : Nat) (isFree : reader.pending = none) :
      Moves timeout reader (reader.ask timeout count)
  | wakes (isBusy : ¬ reader.IsIdle) : Moves timeout reader reader.wake
  | waits (later : Instant) (isLater : reader.clock ≤ later) (isIdle : reader.IsIdle)
      (isInTime : ∀ pending ∈ reader.pending, later ≤ pending.reading.deadline) :
      Moves timeout reader { reader with clock := later }

/-- What a reader comes to by any number of moves. -/
abbrev Leads (timeout : Duration) (reader after : Reader) : Prop :=
  Relation.ReflTransGen (Moves timeout) reader after

/-! ### What every move keeps -/

/-- What is known of the read under way. -/
structure UnderWay (reader : Reader) (timeout : Duration) (pending : Pending) : Prop where
  deadline : pending.reading.deadline = pending.wish.begun + timeout
  lacking : pending.reading.got.length + pending.reading.lacking = pending.wish.count
  begun_le : pending.wish.begun ≤ reader.clock
  undue : ∀ time, reader.intake.Due timeout reader.returned.length pending.wish time →
    reader.clock ≤ time
  rounds : pending.rounds = 0 ∨
    pending.rounds ≤ pending.reading.got.length ∧ pending.reading.got.length < pending.wish.count

/-- What holds after every move. -/
structure Sound (reader : Reader) (timeout : Duration) : Prop where
  conserved : reader.returned ++ reader.got ++ reader.incoming.waiting = reader.intake.bytes
  past : ∀ arrival ∈ reader.intake.arrivals, arrival.1 ≤ reader.clock
  hungUp : reader.intake.hangUp.isSome = reader.incoming.hungUp
  hungUp_le : ∀ time ∈ reader.intake.hangUp, time ≤ reader.clock
  underWay : ∀ pending ∈ reader.pending, reader.UnderWay timeout pending
  ended_le : ∀ read ∈ reader.completed, read.ended ≤ reader.clock
  exact : ∀ i read, reader.completed[i]? = some read →
    reader.intake.Exact timeout ((reader.completed.take i).flatMap (·.bytes)).length read

variable {pending : Pending} {chunk : Bytes} {later : Instant}

theorem got_of_some (h : reader.pending = some pending) : reader.got = pending.reading.got := by
  rw [got, h]
  rfl

theorem isIdle_of (hpending : reader.pending = some pending) (hnil : reader.incoming.waiting = [])
    (hopen : pending.reading.isOver reader.incoming reader.clock = false) : reader.IsIdle := by
  intro other hother
  rw [hpending] at hother
  cases Option.some.inj hother
  exact ⟨hnil, hopen⟩

theorem Sound.hangUp_eq_none (h : reader.Sound timeout) (hopen : reader.incoming.hungUp = false) :
    reader.intake.hangUp = none := by
  have hnone := h.hungUp
  rw [hopen] at hnone
  exact Option.isNone_iff_eq_none.mp (Option.isSome_eq_false_iff.mp hnone)

theorem Sound.arrive (h : reader.Sound timeout) (hopen : reader.incoming.hungUp = false) :
    (reader.arrive chunk).Sound timeout where
  conserved := by
    have hwaiting : (reader.incoming.arrive chunk).waiting = reader.incoming.waiting ++ chunk := by
      simp [Incoming.arrive, hopen]
    show reader.returned ++ reader.got ++ (reader.incoming.arrive chunk).waiting = _
    rw [hwaiting, ← List.append_assoc, h.conserved]
    exact Intake.bytes_arrive.symm
  past := List.forall_mem_append.mpr ⟨h.past, List.forall_mem_singleton.mpr (Nat.le_refl _)⟩
  hungUp := by
    have hsame : (reader.incoming.arrive chunk).hungUp = reader.incoming.hungUp := by
      simp [Incoming.arrive, hopen]
    exact h.hungUp.trans hsame.symm
  hungUp_le := h.hungUp_le
  underWay pending hpending :=
    have hway := h.underWay pending hpending
    { hway with
      undue := fun time hdue => by
        by_contra hearly
        exact hearly (hway.undue time (hdue.of_arrive (Nat.lt_of_not_le hearly))) }
  ended_le := h.ended_le
  exact i read hread := (h.exact i read hread).arrive (h.hangUp_eq_none hopen)
    (h.ended_le read (List.mem_of_getElem? hread))

theorem Sound.hangUp (h : reader.Sound timeout) (hopen : reader.incoming.hungUp = false) :
    reader.hangUp.Sound timeout where
  conserved := h.conserved
  past := h.past
  hungUp := rfl
  hungUp_le time hmem := by
    cases Option.some.inj hmem
    exact Nat.le_refl _
  underWay pending hpending :=
    have hway := h.underWay pending hpending
    { hway with
      undue := fun time hdue => by
        by_contra hearly
        exact hearly (hway.undue time (hdue.of_hangUp (Nat.lt_of_not_le hearly))) }
  ended_le := h.ended_le
  exact i read hread := (h.exact i read hread).hangUp (h.hangUp_eq_none hopen)
    (h.ended_le read (List.mem_of_getElem? hread))

theorem Sound.ask (h : reader.Sound timeout) (hfree : reader.pending = none) (count : Nat) :
    (reader.ask timeout count).Sound timeout where
  conserved := by
    -- no read is under way that could have got any
    have hgot : reader.got = [] := by rw [got, hfree]; rfl
    have hconserved := h.conserved
    rw [hgot] at hconserved
    exact hconserved
  past := h.past
  hungUp := h.hungUp
  hungUp_le := h.hungUp_le
  underWay pending hpending := by
    cases Option.some.inj hpending
    exact ⟨rfl, Nat.zero_add count, Nat.le_refl _, fun time hdue => hdue.1, .inl rfl⟩
  ended_le := h.ended_le
  exact := h.exact

/-- Before its deadline a read that has nothing to do is not due. -/
theorem Sound.not_due {time : Instant} (h : reader.Sound timeout)
    (hpending : reader.pending = some pending) (hidle : reader.IsIdle)
    (hearly : time < pending.reading.deadline) :
    ¬ reader.intake.Due timeout reader.returned.length pending.wish time := by
  intro hdue
  have hway := h.underWay pending hpending
  obtain ⟨hwaiting, hopen⟩ := hidle pending hpending
  obtain ⟨hlacks, hline, -⟩ := Reading.isOver_eq_false_iff.mp hopen
  obtain henough | ⟨hungUp, hmem, -⟩ | hlate := hdue.2
  · -- what is in was returned or taken, and the read still lacks some
    have hin := congrArg List.length h.conserved
    rw [got_of_some hpending, hwaiting, List.append_nil, List.length_append] at hin
    have hall := reader.intake.fresh_le reader.returned.length (time + 1)
    have hlacking := hway.lacking
    omega
  · rw [h.hangUp_eq_none hline] at hmem
    cases hmem
  · rw [hway.deadline] at hearly
    exact absurd hearly (Nat.not_lt.mpr hlate)

theorem Sound.wait (h : reader.Sound timeout) (hle : reader.clock ≤ later) (hidle : reader.IsIdle)
    (hintime : ∀ pending ∈ reader.pending, later ≤ pending.reading.deadline) :
    Sound { reader with clock := later } timeout where
  conserved := h.conserved
  past arrival hmem := Nat.le_trans (h.past arrival hmem) hle
  hungUp := h.hungUp
  hungUp_le time hmem := Nat.le_trans (h.hungUp_le time hmem) hle
  underWay pending hpending :=
    have hway := h.underWay pending hpending
    { hway with
      begun_le := Nat.le_trans hway.begun_le hle
      undue := fun time hdue => by
        by_contra hearly
        exact h.not_due hpending hidle
          (Nat.lt_of_lt_of_le (Nat.lt_of_not_le hearly) (hintime pending hpending)) hdue }
  ended_le read hmem := Nat.le_trans (h.ended_le read hmem) hle
  exact := h.exact

theorem UnderWay.clock_le (h : reader.UnderWay timeout pending) :
    reader.clock ≤ pending.wish.begun + timeout :=
  h.undue _ ⟨Nat.le_add_right _ _, .inr (.inr (Nat.le_refl _))⟩

theorem UnderWay.rounds_lt (h : reader.UnderWay timeout pending) :
    pending.rounds < max pending.wish.count 1 := by
  obtain hzero | ⟨hle, hlt⟩ := h.rounds
  · omega
  · omega

/-- What is in was returned, or is what the read under way takes and what it leaves. -/
theorem Sound.taken (h : reader.Sound timeout) (hpending : reader.pending = some pending) :
    reader.returned ++ ((pending.reading.take reader.incoming).1.got ++
      (pending.reading.take reader.incoming).2.waiting) = reader.intake.bytes := by
  rw [Reading.take_conserves, ← got_of_some hpending, ← List.append_assoc]
  exact h.conserved

theorem Sound.goOn (h : reader.Sound timeout) (hpending : reader.pending = some pending)
    (hbusy : ¬ reader.IsIdle) (hopen : reader.endsNow pending = false) :
    (reader.goOn pending (pending.rounds + 1)).Sound timeout where
  conserved := (List.append_assoc ..).trans (h.taken hpending)
  past := h.past
  hungUp := h.hungUp
  hungUp_le := h.hungUp_le
  underWay after hafter := by
    cases Option.some.inj hafter
    have hway := h.underWay pending hpending
    have hlength : (pending.reading.take reader.incoming).1.got.length +
        (pending.reading.take reader.incoming).1.lacking = pending.wish.count :=
      Reading.length_take.trans hway.lacking
    obtain ⟨hlacks, -, -⟩ := Reading.isOver_eq_false_iff.mp hopen
    refine ⟨hway.deadline, hlength, hway.begun_le, hway.undue, .inr ⟨?_, ?_⟩⟩
    · -- the read was woken for bytes that it could take
      have hwaiting : reader.incoming.waiting ≠ [] := by
        intro hnil
        rw [endsNow, Reading.take_of_nil hnil] at hopen
        exact hbusy (isIdle_of hpending hnil hopen)
      have hpos : 0 < reader.incoming.waiting.length := List.length_pos_iff.mpr hwaiting
      have hless : pending.reading.lacking - reader.incoming.waiting.length ≠ 0 := hlacks
      have hrounds : pending.rounds ≤ pending.reading.got.length := by
        obtain hzero | ⟨hle, -⟩ := hway.rounds
        · omega
        · exact hle
      show pending.rounds + 1 ≤
        (pending.reading.got ++ reader.incoming.waiting.take pending.reading.lacking).length
      rw [List.length_append, List.length_take]
      omega
    · show (pending.reading.take reader.incoming).1.got.length < pending.wish.count
      omega
  ended_le := h.ended_le
  exact := h.exact

/-- All that is in and was not returned came in before any later time. -/
theorem Sound.fresh_eq (h : reader.Sound timeout) (hpending : reader.pending = some pending)
    {time : Instant} (hlater : reader.clock < time) :
    reader.intake.fresh reader.returned.length time =
      ((pending.reading.take reader.incoming).1.got ++
        (pending.reading.take reader.incoming).2.waiting).length := by
  have hpast : ∀ arrival ∈ reader.intake.arrivals, arrival.1 < time := fun arrival hmem =>
    Nat.lt_of_le_of_lt (h.past arrival hmem) hlater
  rw [Intake.fresh_eq _ hpast, ← h.taken hpending, List.length_append, Nat.add_sub_cancel_left]

/-- A read that ends is due. -/
theorem Sound.due (h : reader.Sound timeout) (hpending : reader.pending = some pending)
    (hover : reader.endsNow pending = true) :
    reader.intake.Due timeout reader.returned.length pending.wish reader.clock := by
  have hway := h.underWay pending hpending
  refine ⟨hway.begun_le, ?_⟩
  obtain hfull | hhungUp | hlate := Reading.isOver_iff.mp hover
  · -- what it has taken came in by now
    left
    have hcount : (pending.reading.take reader.incoming).1.got.length = pending.wish.count := by
      rw [← hway.lacking, ← Reading.length_take, hfull, Nat.add_zero]
    rw [h.fresh_eq hpending (Nat.lt_succ_self _), List.length_append, hcount]
    exact Nat.le_add_right _ _
  · right; left
    have hsome : reader.intake.hangUp.isSome = true := h.hungUp.trans hhungUp
    obtain ⟨time, htime⟩ := Option.isSome_iff_exists.mp hsome
    exact ⟨time, htime, h.hungUp_le time htime⟩
  · right; right
    exact hway.deadline ▸ hlate

theorem Sound.exact_finish (h : reader.Sound timeout) (hpending : reader.pending = some pending)
    (hover : reader.endsNow pending = true) :
    reader.intake.Exact timeout reader.returned.length (reader.result pending) where
  bytes := by
    have hway := h.underWay pending hpending
    -- nothing has come in after the deadline by now
    have hall := h.fresh_eq hpending (Nat.lt_succ_of_le hway.clock_le)
    refine ⟨_, reader.intake.fresh_mono _ (Nat.le_succ _), Nat.le_refl _, ?_⟩
    show _ = (reader.intake.bytes.drop _).take (min pending.wish.count
      (reader.intake.fresh reader.returned.length (pending.wish.begun + timeout + 1)))
    rw [hall, ← h.taken hpending, List.drop_left]
    exact Reading.got_take hway.lacking
  ended := ⟨h.due hpending hover, (h.underWay pending hpending).undue⟩
  rounds := (h.underWay pending hpending).rounds_lt

theorem Sound.finish (h : reader.Sound timeout) (hpending : reader.pending = some pending)
    (hover : reader.endsNow pending = true) : (reader.finish pending).Sound timeout where
  conserved := by
    show (reader.completed ++ [reader.result pending]).flatMap (·.bytes) ++ [] ++ _ = _
    rw [List.flatMap_append, List.flatMap_singleton, List.append_nil, List.append_assoc]
    exact h.taken hpending
  past := h.past
  hungUp := h.hungUp
  hungUp_le := h.hungUp_le
  underWay after hafter := by cases hafter
  ended_le := List.forall_mem_append.mpr
    ⟨h.ended_le, List.forall_mem_singleton.mpr (Nat.le_refl _)⟩
  exact i read hread := by
    replace hread : (reader.completed ++ [reader.result pending])[i]? = some read := hread
    show reader.intake.Exact timeout
      (((reader.completed ++ [reader.result pending]).take i).flatMap (·.bytes)).length read
    obtain hi | hi := Nat.lt_or_ge i reader.completed.length
    · -- the reads before an earlier one are the same as they were
      rw [List.getElem?_append_left hi] at hread
      rw [List.take_append_of_le_length (Nat.le_of_lt hi)]
      exact h.exact i read hread
    · rw [List.getElem?_append_right hi] at hread
      -- the read that ends comes after all of them
      have hlast : i = reader.completed.length := by
        obtain ⟨hlt, -⟩ := List.getElem?_eq_some_iff.mp hread
        rw [List.length_singleton] at hlt
        omega
      subst hlast
      rw [Nat.sub_self] at hread
      cases Option.some.inj hread
      rw [List.take_left]
      exact h.exact_finish hpending hover

theorem exists_pending (h : ¬ reader.IsIdle) : ∃ pending, reader.pending = some pending := by
  cases hpending : reader.pending with
  | none =>
    refine absurd (fun pending hmem => ?_) h
    rw [hpending] at hmem
    cases hmem
  | some pending => exact ⟨pending, rfl⟩

theorem wake_of_some (h : reader.pending = some pending) :
    reader.wake = if reader.endsNow pending then reader.finish pending
      else reader.goOn pending (pending.rounds + 1) := by
  rw [wake, h]

theorem moves_of_wake {after : Reader} (hbusy : ¬ reader.IsIdle) (h : reader.wake = after) :
    reader.Moves timeout after :=
  h ▸ .wakes hbusy

theorem Sound.wake (h : reader.Sound timeout) (hbusy : ¬ reader.IsIdle) :
    reader.wake.Sound timeout := by
  obtain ⟨pending, hpending⟩ := exists_pending hbusy
  rw [wake_of_some hpending]
  by_cases hover : reader.endsNow pending
  · rw [if_pos hover]
    exact h.finish hpending hover
  · rw [if_neg hover]
    exact h.goOn hpending hbusy (Bool.eq_false_iff.mpr hover)

theorem Sound.move {after : Reader} (h : reader.Sound timeout)
    (hmove : reader.Moves timeout after) : after.Sound timeout := by
  cases hmove with
  | arrives chunk isOpen => exact h.arrive isOpen
  | hangsUp isOpen => exact h.hangUp isOpen
  | asks count isFree => exact h.ask isFree count
  | wakes isBusy => exact h.wake isBusy
  | waits later isLater isIdle isInTime => exact h.wait isLater isIdle isInTime

theorem sound_start : Sound {} timeout where
  conserved := rfl
  past := List.forall_mem_nil _
  hungUp := rfl
  hungUp_le _ hmem := by cases hmem
  underWay _ hmem := by cases hmem
  ended_le := List.forall_mem_nil _
  exact _ _ hread := by cases hread

theorem sound (h : Leads timeout {} reader) : reader.Sound timeout := by
  induction h with
  | refl => exact sound_start
  | tail _ hmove ih => exact ih.move hmove

/-! ### Every read ends -/

/-- The read under way has ended as it was to be expected of what came in. -/
structure EndsAs (reader : Reader) (wish : Wish) (arrivals : List (Instant × Bytes))
    (ending : Ending) (after : Reader) : Prop where
  clock : after.clock = ending.finished
  waiting : after.incoming.waiting = ending.rest.waiting
  arrivals : ∃ passed, arrivals = passed ++ ending.arrivals ∧
    after.intake.arrivals = reader.intake.arrivals ++ passed
  completed : ∃ rounds, after.completed =
    reader.completed ++ [⟨wish, rounds, ending.finished, ending.bytes⟩]
  pending : after.pending = none

theorem moves_finish (hpending : reader.pending = some pending)
    (hover : reader.endsNow pending = true) : reader.Moves timeout (reader.finish pending) := by
  have hwake : reader.wake = reader.finish pending := by
    rw [wake_of_some hpending, if_pos hover]
  refine moves_of_wake (fun hidle => ?_) hwake
  obtain ⟨hnil, hopen⟩ := hidle pending hpending
  rw [endsNow, Reading.take_of_nil hnil, hopen] at hover
  cases hover

/-- A read that does not end takes what waits and then has nothing to do. -/
theorem exists_settled (timeout : Duration) (hpending : reader.pending = some pending)
    (hopen : reader.endsNow pending = false) :
    ∃ rounds, reader.Leads timeout (reader.goOn pending rounds) ∧
      (reader.goOn pending rounds).IsIdle := by
  obtain ⟨hlacks, -, -⟩ := Reading.isOver_eq_false_iff.mp hopen
  have hsettled : ∀ rounds, (reader.goOn pending rounds).IsIdle := fun rounds =>
    isIdle_of rfl (Reading.waiting_take hlacks) hopen
  by_cases hidle : reader.IsIdle
  · obtain ⟨hnil, -⟩ := hidle pending hpending
    have hsame : reader.goOn pending pending.rounds = reader := by
      rw [goOn, Reading.take_of_nil hnil, ← hpending]
    exact ⟨pending.rounds, hsame.symm ▸ .refl, hsettled _⟩
  · have hwake : reader.wake = reader.goOn pending (pending.rounds + 1) := by
      rw [wake_of_some hpending, if_neg (Bool.eq_false_iff.mp hopen)]
    exact ⟨_, .single (moves_of_wake hidle hwake), hsettled _⟩

theorem endsAs_finish {last : Reader} (arrivals : List (Instant × Bytes))
    (harrivals : last.intake.arrivals = reader.intake.arrivals)
    (hcompleted : last.completed = reader.completed) :
    reader.EndsAs pending.wish arrivals ⟨(pending.reading.take last.incoming).1.got, last.clock,
      (pending.reading.take last.incoming).2, arrivals⟩ (last.finish pending) where
  clock := rfl
  waiting := rfl
  arrivals := ⟨[], rfl, harrivals.trans (List.append_nil _).symm⟩
  completed := ⟨pending.rounds + 1, congrArg (· ++ [last.result pending]) hcompleted⟩
  pending := rfl

/-- A read that finds nothing when its time is over gives what it has got by then. -/
theorem exists_last {last : Reader} (arrivals : List (Instant × Bytes))
    (hleads : reader.Leads timeout last) (hpending : last.pending = some pending)
    (hnil : last.incoming.waiting = [])
    (hover : pending.reading.isOver last.incoming last.clock = true)
    (harrivals : last.intake.arrivals = reader.intake.arrivals)
    (hcompleted : last.completed = reader.completed) :
    ∃ after, reader.Leads timeout after ∧ reader.EndsAs pending.wish arrivals
      ⟨pending.reading.got, last.clock, last.incoming, arrivals⟩ after := by
  have htake : pending.reading.take last.incoming = (pending.reading, last.incoming) :=
    Reading.take_of_nil hnil
  have hends : reader.EndsAs pending.wish arrivals _ (last.finish pending) :=
    endsAs_finish arrivals harrivals hcompleted
  rw [htake] at hends
  have hfinish : last.Moves timeout (last.finish pending) :=
    moves_finish hpending (by rwa [endsNow, htake])
  exact ⟨last.finish pending, hleads.tail hfinish, hends⟩

/-- A read that has nothing to do ends when the far end hangs up or at its deadline, if nothing more
comes in before. -/
theorem exists_expired (timeout : Duration) (hpending : reader.pending = some pending)
    (hidle : reader.IsIdle) (hangUp : Option Instant) (arrivals : List (Instant × Bytes)) :
    ∃ after, reader.Leads timeout after ∧ reader.EndsAs pending.wish arrivals
      ⟨pending.reading.got, pending.reading.endTime hangUp reader.clock, reader.incoming,
        arrivals⟩ after := by
  obtain ⟨hnil, hopen⟩ := hidle pending hpending
  obtain ⟨-, hline, hearly⟩ := Reading.isOver_eq_false_iff.mp hopen
  have hwaits : ∀ later, reader.clock ≤ later → later ≤ pending.reading.deadline →
      reader.Moves timeout { reader with clock := later } := by
    intro later hle hintime
    refine .waits later hle hidle fun other hother => ?_
    rw [hpending] at hother
    cases Option.some.inj hother
    exact hintime
  have hexpires : ∃ after, reader.Leads timeout after ∧ reader.EndsAs pending.wish arrivals
      ⟨pending.reading.got, pending.reading.deadline, reader.incoming, arrivals⟩ after :=
    exists_last arrivals (.single (hwaits _ (Nat.le_of_lt hearly) (Nat.le_refl _))) hpending hnil
      (Reading.isOver_iff.mpr (.inr (.inr (Nat.le_refl _)))) rfl rfl
  cases hangUp with
  | none => exact hexpires
  | some time =>
    -- a hang-up that is overdue comes at once, one from the deadline on comes too late
    by_cases hearlier : time < pending.reading.deadline
    · let waited : Reader := { reader with clock := max reader.clock time }
      have hwaited : reader.Moves timeout waited :=
        hwaits _ (Nat.le_max_left _ _) (Nat.max_le.mpr ⟨Nat.le_of_lt hearly, Nat.le_of_lt hearlier⟩)
      have hhungUp : reader.Leads timeout waited.hangUp :=
        (Relation.ReflTransGen.single hwaited).tail (.hangsUp hline)
      obtain ⟨after, hleads, hends⟩ := exists_last arrivals hhungUp hpending hnil
        (Reading.isOver_iff.mpr (.inr (.inl rfl))) rfl rfl
      rw [Reading.endTime, if_pos hearlier]
      exact ⟨after, hleads, { hends with }⟩
    · rw [Reading.endTime, if_neg hearlier]
      exact hexpires

/-- Whatever is to come in, the read under way can end, and it does so as following it says. -/
theorem exists_ending (hpending : reader.pending = some pending) (hangUp : Option Instant)
    {arrivals : List (Instant × Bytes)} (horder : InOrder reader.clock arrivals) :
    ∃ after, reader.Leads timeout after ∧
      reader.EndsAs pending.wish arrivals
        (pending.reading.follow hangUp reader.clock reader.incoming arrivals) after := by
  -- the induction is on what is to come in; each part is taken before the next one comes
  induction arrivals generalizing reader pending with
  | nil =>
    by_cases hover : reader.endsNow pending
    · rw [Reading.follow_of_over hover]
      exact ⟨_, .single (moves_finish hpending hover), endsAs_finish [] rfl rfl⟩
    · have hopen : reader.endsNow pending = false := Bool.eq_false_iff.mpr hover
      obtain ⟨rounds, hsettles, hidle⟩ := exists_settled timeout hpending hopen
      obtain ⟨after, hruns, hends⟩ := exists_expired timeout rfl hidle hangUp []
      rw [Reading.follow_nil_of_open hopen]
      exact ⟨after, hsettles.trans hruns, { hends with }⟩
  | cons arrival later ih =>
    obtain ⟨time, chunk⟩ := arrival
    by_cases hover : reader.endsNow pending
    · rw [Reading.follow_of_over hover]
      exact ⟨_, .single (moves_finish hpending hover), endsAs_finish _ rfl rfl⟩
    · have hopen : reader.endsNow pending = false := Bool.eq_false_iff.mpr hover
      obtain ⟨rounds, hsettles, hidle⟩ := exists_settled timeout hpending hopen
      rw [Reading.follow_cons_of_open hopen]
      by_cases hintime : time < pending.reading.deadline
      · -- nothing else happens until this part comes in, and from there on it is as for the rest
        obtain ⟨-, hline, -⟩ := Reading.isOver_eq_false_iff.mp hopen
        let settled : Reader := reader.goOn pending rounds
        let waited : Reader := { settled with clock := time }
        have hwaited : settled.Moves timeout waited := by
          refine .waits time horder.1 hidle fun other hother => ?_
          cases Option.some.inj hother
          exact Nat.le_of_lt hintime
        have harrives : waited.Moves timeout (waited.arrive chunk) := .arrives chunk hline
        obtain ⟨after, hruns, hends⟩ := @ih (waited.arrive chunk) _ rfl horder.2
        rw [if_pos hintime, Nat.max_eq_right horder.1]
        refine ⟨after, ((hsettles.tail hwaited).tail harrives).trans hruns, { hends with
          arrivals := ?_ }⟩
        obtain ⟨passed, hsplit, harrivals⟩ := hends.arrivals
        refine ⟨(time, chunk) :: passed, congrArg ((time, chunk) :: ·) hsplit, ?_⟩
        rw [harrivals]
        exact List.append_assoc _ [(time, chunk)] passed
      · obtain ⟨after, hruns, hends⟩ := exists_expired timeout rfl hidle none
          ((time, chunk) :: later)
        rw [if_neg hintime]
        exact ⟨after, hsettles.trans hruns, { hends with }⟩

/-- However the bytes come in, none is lost, doubled or moved by a sequence of reads: each read
gives the first ones that no read before it has given, all that came in by its deadline up to as
many as it asks for, and what it does not ask for stays. It ends as soon as it can, after no more
rounds than bytes that it asks for, and it is not under way any longer after its deadline. -/
theorem reads_exact (h : Leads timeout {} reader) :
    reader.returned ++ reader.got ++ reader.incoming.waiting = reader.intake.bytes ∧
    (∀ i read, reader.completed[i]? = some read →
      reader.intake.Exact timeout ((reader.completed.take i).flatMap (·.bytes)).length read) ∧
    ∀ pending, reader.pending = some pending →
      reader.clock ≤ pending.wish.begun + timeout ∧
      pending.rounds < max pending.wish.count 1 ∧
      ∀ hangUp arrivals, InOrder reader.clock arrivals → ∃ after,
        reader.Leads timeout after ∧
        reader.EndsAs pending.wish arrivals
          (pending.reading.follow hangUp reader.clock reader.incoming arrivals) after := by
  have hsound := sound h
  refine ⟨hsound.conserved, hsound.exact, fun pending hpending => ?_⟩
  have hway := hsound.underWay pending hpending
  exact ⟨hway.clock_le, hway.rounds_lt, fun hangUp arrivals horder =>
    exists_ending hpending hangUp horder⟩

/-- Two bytes are asked for and come in one by one, the second one at the deadline and with a third
one behind it. That one is all that the next read gets before the far end hangs up. -/
theorem reads_exact_trickle :
    let first : Completed := ⟨⟨0, 2⟩, 2, 50, [1, 2]⟩
    let second : Completed := ⟨⟨50, 4⟩, 2, 60, [3]⟩
    ∃ reader, Leads 50 {} reader ∧
      reader.completed = [first, second] ∧
      reader.intake = ⟨[(10, [1]), (50, [2, 3])], some 60⟩ ∧
      reader.returned ++ reader.got ++ reader.incoming.waiting = [1, 2, 3] ∧
      reader.intake.Exact 50 0 first ∧ reader.intake.Exact 50 2 second := by
  intro first second
  let waiting : Reader :=
    { clock := 10, intake := ⟨[(10, [1])], none⟩, pending := some ⟨⟨0, 2⟩, 1, ⟨[1], 1, 50⟩⟩ }
  let ended : Reader :=
    { clock := 50, incoming := ⟨[3], false⟩, intake := ⟨[(10, [1]), (50, [2, 3])], none⟩
      completed := [first] }
  let again : Reader :=
    { ended with incoming := {}, pending := some ⟨⟨50, 4⟩, 1, ⟨[3], 3, 100⟩⟩ }
  let last : Reader :=
    { clock := 60, incoming := ⟨[], true⟩, intake := ⟨[(10, [1]), (50, [2, 3])], some 60⟩
      completed := [first, second] }
  have hwaiting : Leads 50 {} waiting := by
    have hasked : Leads 50 {} (({} : Reader).ask 50 2) := .single (.asks 2 rfl)
    have hpassed := hasked.tail (.waits 10 (by decide) (by decide) (by decide))
    exact (hpassed.tail (.arrives [1] rfl)).tail (moves_of_wake (by decide) (by decide))
  have hended : Leads 50 {} ended := by
    have hpassed := hwaiting.tail (.waits 50 (by decide) (by decide) (by decide))
    exact (hpassed.tail (.arrives [2, 3] rfl)).tail (moves_of_wake (by decide) (by decide))
  have hagain : Leads 50 {} again :=
    (hended.tail (.asks 4 rfl)).tail (moves_of_wake (by decide) (by decide))
  have hlast : Leads 50 {} last := by
    have hpassed := hagain.tail (.waits 60 (by decide) (by decide) (by decide))
    exact (hpassed.tail (.hangsUp rfl)).tail (moves_of_wake (by decide) (by decide))
  obtain ⟨hconserved, hexact, -⟩ := reads_exact hlast
  exact ⟨last, hlast, rfl, rfl, hconserved, hexact 0 first rfl, hexact 1 second rfl⟩

end Reader
end ModbusMaster.Serial
