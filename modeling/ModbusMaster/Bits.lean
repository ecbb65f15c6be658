import ModbusMaster.Bytes

/-!
Coil and input states packed eight to a byte, the first state in the least significant bit. The
unused high bits of the last byte are written as zero and ignored when read.
-/

namespace ModbusMaster.Bits

/-- How many bytes hold `count` states. -/
def byteCount (count : Nat) : Nat :=
  (count + 7) / 8

/-- The number whose binary digits, least significant first, are the given states. -/
def number : List Bool → Nat
  | [] => 0
  | b :: rest => b.toNat + 2 * number rest

/-- The states packed into `byteCount` bytes. -/
def pack (states : List Bool) : Bytes :=
  (chunks 8 states).map fun eight => UInt8.ofNat (number eight)

/-- State `i` of a packed byte string; false beyond its end. -/
def stateAt (packed : Bytes) (i : Nat) : Bool :=
  (packed.getD (i / 8) 0).toNat.testBit (i % 8)

/-- The first `count` states of a packed byte string, if it is long enough to hold them. -/
def unpack? (packed : Bytes) (count : Nat) : Option (List Bool) :=
  if packed.length < byteCount count then none
  else some ((List.range count).map (stateAt packed))

@[simp] theorem length_pack (states : List Bool) :
    (pack states).length = byteCount states.length := by
  simp [pack, chunks, byteCount]

theorem length_of_unpack? {packed : Bytes} {count : Nat} {states : List Bool}
    (h : unpack? packed count = some states) : states.length = count := by
  unfold unpack? at h
  split at h
  · simp at h
  · simp only [Option.some.injEq] at h
    simp [← h]

end ModbusMaster.Bits
