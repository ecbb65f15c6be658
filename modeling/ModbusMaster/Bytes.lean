/-!
Byte strings and the words inside them. Words travel high byte first; only the check value of a
serial frame travels low byte first.
-/

namespace ModbusMaster

abbrev Bytes := List UInt8

/-- No index into a byte string, and no end of a part of one, reaches this: they are numbers of 64
bits. -/
def indexLimit : Nat := 18446744073709551616

/-- The word with the given high and low byte. -/
def word (high low : UInt8) : UInt16 :=
  UInt16.ofNat (256 * high.toNat + low.toNat)

/-- The two bytes of a word, high byte first. -/
def bigEndian (w : UInt16) : Bytes :=
  [UInt8.ofNat (w.toNat / 256), UInt8.ofNat (w.toNat % 256)]

/-- The two bytes of a word, low byte first. -/
def littleEndian (w : UInt16) : Bytes :=
  [UInt8.ofNat (w.toNat % 256), UInt8.ofNat (w.toNat / 256)]

/-- The words written one after the other in a byte string; a lone last byte is dropped. -/
def wordsOf : Bytes → List UInt16
  | high :: low :: rest => word high low :: wordsOf rest
  | _ => []

/-- A byte string cut into pieces of `size` bytes, the last one possibly shorter. -/
def chunks {α : Type} (size : Nat) (xs : List α) : List (List α) :=
  (List.range ((xs.length + size - 1) / size)).map fun i => (xs.drop (i * size)).take size

theorem toNat_word (high low : UInt8) : (word high low).toNat = 256 * high.toNat + low.toNat := by
  have hh := high.toNat_lt
  have hl := low.toNat_lt
  simp only [word, UInt16.toNat_ofNat', Nat.reducePow]
  omega

/-- A word read back from its big-endian bytes is the word that was written. -/
theorem wordsOf_bigEndian_append (w : UInt16) (rest : Bytes) :
    wordsOf (bigEndian w ++ rest) = w :: wordsOf rest := by
  have hw := w.toNat_lt
  have h : word (UInt8.ofNat (w.toNat / 256)) (UInt8.ofNat (w.toNat % 256)) = w := by
    apply UInt16.toNat_inj.mp
    rw [toNat_word]
    simp only [UInt8.toNat_ofNat', Nat.reducePow]
    omega
  simp [bigEndian, wordsOf, h]

@[simp] theorem length_bigEndian (w : UInt16) : (bigEndian w).length = 2 := rfl

@[simp] theorem length_littleEndian (w : UInt16) : (littleEndian w).length = 2 := rfl

end ModbusMaster
