import ModbusMaster.Error

/-!
Ranges of addresses. Addresses are words, so a range may reach address 65535 but not beyond, and
each kind of cell has a limit to how many fit in one frame.
-/

namespace ModbusMaster

structure AddressRange where
  start : UInt16
  count : UInt16
  deriving DecidableEq

namespace AddressRange

/-- How many coils or inputs one read may ask for. -/
def maxReadBits : UInt16 := 2000

/-- How many registers one read may ask for, so that the reply always fits in one frame. -/
def maxReadRegisters : UInt16 := 120

/-- How many coils one write may carry. -/
def maxWriteBits : UInt16 := 1968

/-- How many registers one write may carry. -/
def maxWriteRegisters : UInt16 := 120

/-- The range of `count` addresses from `start` on. -/
def of (start count : UInt16) : Except InvalidRange AddressRange :=
  if count = 0 then .error .countOfZero
  else if 65536 < start.toNat + count.toNat then .error (.addressOverflow start count)
  else .ok ⟨start, count⟩

/-- The range of `count` addresses from `start` on, if there are at most `limit`. -/
def limited (limit start count : UInt16) : Except InvalidRange AddressRange := do
  let range ← of start count
  if limit < count then .error (.countTooLargeForType count limit) else .ok range

/-- The first address. -/
def first (range : AddressRange) : Nat :=
  range.start.toNat

/-- One more than the last address. -/
def stop (range : AddressRange) : Nat :=
  range.start.toNat + range.count.toNat

/-- Whether all of `inner` lies inside `outer`. -/
def contains (outer inner : AddressRange) : Bool :=
  outer.first ≤ inner.first && inner.stop ≤ outer.stop

def describe (range : AddressRange) : String :=
  "start: " ++ Hex.wordLiteral range.start ++ s!" qty: {range.count.toNat}"

/-- A range is accepted exactly when it is not empty and ends at address 65535 or before. -/
theorem of_eq_ok_iff {start count : UInt16} {range : AddressRange} :
    of start count = .ok range ↔
      count ≠ 0 ∧ start.toNat + count.toNat ≤ 65536 ∧ range = ⟨start, count⟩ := by
  unfold of
  by_cases hz : count = 0
  · simp [hz]
  · by_cases ho : 65536 < start.toNat + count.toNat
    · have hn : ¬ start.toNat + count.toNat ≤ 65536 := Nat.not_le.mpr ho
      simp [hz, ho, hn]
    · simp [hz, ho, Nat.le_of_not_lt ho, eq_comm]

end AddressRange

/-- The two words that name a range in a request. -/
def AddressRange.encode (range : AddressRange) : Bytes :=
  bigEndian range.start ++ bigEndian range.count

end ModbusMaster
