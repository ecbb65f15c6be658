import Mathlib.Algebra.Order.Floor.Div
import Mathlib.GroupTheory.GroupAction.Ring
import ModbusMaster.Proofs.Bits.Packing

/-!
Packed byte strings state by state. A string is determined by its length and its states
(`eq_of_stateAt`). Setting and looking up one state checks the index of the byte and the place of
the bit in it; packing is what comes of setting one state after the other, and unpacking of looking
up one after the other, and neither meets an index or a place that does not exist
(`foldlM_set?`, `mapM_get?`).
-/

namespace ModbusMaster.Bits

/-- The byte in which a single bit is set, if bytes have that bit. -/
def bit? (place : Nat) : Option UInt8 :=
  if place < 8 then some (1 <<< UInt8.ofNat place) else none

/-- Sets state `i` of a packed byte string, if it is long enough to have it. -/
def set? (packed : Bytes) (i : Nat) : Option Bytes := do
  let byte ← packed[i / 8]?
  let bit ← bit? (i % 8)
  return packed.set (i / 8) (byte ||| bit)

/-- Looks up state `i` of a packed byte string, if it is long enough to have it. -/
def get? (packed : Bytes) (i : Nat) : Option Bool := do
  let byte ← packed[i / 8]?
  let bit ← bit? (i % 8)
  return byte &&& bit != 0

/-- The numbers of the states that are set. -/
def places (states : List Bool) : List Nat :=
  (List.range states.length).filter fun i => states.getD i false

/-- The bytes that hold the first `count` states; the unused high bits of the last byte are
zero. -/
def cleared (packed : Bytes) (count : Nat) : Bytes :=
  (packed.take (byteCount count)).modify (count / 8) (· &&& UInt8.ofNat (2 ^ (count % 8) - 1))

variable {packed packed' : Bytes} {states : List Bool} {count i j place : Nat} {byte : UInt8}

theorem byteCount_eq_ceilDiv (count : Nat) : byteCount count = count ⌈/⌉ 8 :=
  (Nat.ceilDiv_eq_add_pred_div count 8).symm

theorem byteCount_le_iff {length : Nat} : byteCount count ≤ length ↔ count ≤ 8 * length := by
  rw [byteCount]
  omega

/-! ### Single bits -/

theorem testBit_byte (byte : UInt8) (h : 8 ≤ place) : byte.toNat.testBit place = false :=
  Nat.testBit_lt_two_pow
    (Nat.lt_of_lt_of_le byte.toNat_lt (Nat.pow_le_pow_right (by decide) h))

theorem exists_bit? (h : place < 8) : ∃ bit, bit? place = some bit ∧ bit.toNat = 2 ^ place := by
  have hshift : ∀ k : Fin 8, ((1 : UInt8) <<< UInt8.ofNat k.val).toNat = 2 ^ k.val := by decide
  exact ⟨_, if_pos h, hshift ⟨place, h⟩⟩

theorem and_bit_ne_zero {bit : UInt8} (h : bit.toNat = 2 ^ place) :
    (byte &&& bit != 0) = byte.toNat.testBit place := by
  have hand : (byte &&& bit).toNat = (byte.toNat.testBit place).toNat * 2 ^ place := by
    rw [UInt8.toNat_and, h, Nat.and_two_pow]
  have hpos : 2 ^ place ≠ 0 := Nat.ne_of_gt (Nat.two_pow_pos place)
  have hzero : byte &&& bit = 0 ↔ byte.toNat.testBit place = false := by
    rw [← UInt8.toNat_inj, hand]
    cases byte.toNat.testBit place <;> simp
  cases hbit : byte.toNat.testBit place with
  | false => simp [hzero.mpr hbit]
  | true => simp [hzero, hbit]

theorem testBit_or_bit {bit : UInt8} (h : bit.toNat = 2 ^ i) :
    (byte ||| bit).toNat.testBit j = (decide (i = j) || byte.toNat.testBit j) := by
  rw [UInt8.toNat_or, Nat.testBit_or, h, Nat.testBit_two_pow, Bool.or_comm]

theorem testBit_and_mask (hwidth : i < 8) :
    (byte &&& UInt8.ofNat (2 ^ i - 1)).toNat.testBit j =
      (decide (j < i) && byte.toNat.testBit j) := by
  have hsmall : 2 ^ i - 1 < 256 := by
    have hpow : 2 ^ i ≤ 2 ^ 8 := Nat.pow_le_pow_right (by decide) (Nat.le_of_lt hwidth)
    omega
  rw [UInt8.toNat_and, Nat.testBit_and, UInt8.toNat_ofNat_of_lt' hsmall,
    Nat.testBit_two_pow_sub_one, Bool.and_comm]

/-! ### The states of a byte string -/

theorem stateAt_of_getElem? (h : packed[i / 8]? = some byte) :
    stateAt packed i = byte.toNat.testBit (i % 8) := by
  rw [stateAt, List.getD_eq_getElem?_getD, h, Option.getD_some]

theorem stateAt_replicate_zero (length i : Nat) : stateAt (List.replicate length 0) i = false := by
  rw [stateAt, List.getD_eq_getElem?_getD, List.getElem?_replicate]
  split <;> exact Nat.zero_testBit _

/-- Byte strings of one length with the same states are the same. -/
theorem eq_of_stateAt (hlength : packed.length = packed'.length)
    (h : ∀ i < 8 * packed.length, stateAt packed i = stateAt packed' i) : packed = packed' := by
  apply List.ext_getElem hlength
  intro n hn hn'
  apply UInt8.toNat_inj.mp
  apply Nat.eq_of_testBit_eq
  intro place
  by_cases hplace : place < 8
  · -- this bit is one of the states
    have hdiv : (8 * n + place) / 8 = n := by omega
    have hmod : (8 * n + place) % 8 = place := by omega
    have hbyte : packed[(8 * n + place) / 8]? = some packed[n] := by
      rw [hdiv, List.getElem?_eq_getElem hn]
    have hbyte' : packed'[(8 * n + place) / 8]? = some packed'[n] := by
      rw [hdiv, List.getElem?_eq_getElem hn']
    have hstate := h (8 * n + place) (by omega)
    rwa [stateAt_of_getElem? hbyte, stateAt_of_getElem? hbyte', hmod] at hstate
  · rw [testBit_byte _ (Nat.le_of_not_lt hplace), testBit_byte _ (Nat.le_of_not_lt hplace)]

theorem stateAt_append (rest : Bytes) (h : i < 8 * packed.length) :
    stateAt (packed ++ rest) i = stateAt packed i := by
  rw [stateAt, stateAt, List.getD_append _ _ _ _ (by omega)]

/-! ### Packing by setting states -/

theorem mem_places : i ∈ places states ↔ states.getD i false = true := by
  rw [places, List.mem_filter, List.mem_range, and_iff_right_iff_imp]
  intro hset
  by_contra hlong
  rw [List.getD_eq_default _ _ (Nat.le_of_not_lt hlong)] at hset
  cases hset

/-- Setting a state that there is changes that state and no other. -/
theorem exists_set? (h : i < 8 * packed.length) :
    ∃ after, set? packed i = some after ∧ after.length = packed.length ∧
      ∀ j, stateAt after j = (decide (i = j) || stateAt packed j) := by
  have hindex : i / 8 < packed.length := by omega
  obtain ⟨bit, hbit, hvalue⟩ := exists_bit? (Nat.mod_lt i (by decide : 0 < 8))
  refine ⟨packed.set (i / 8) (packed[i / 8] ||| bit), ?_, List.length_set, fun j => ?_⟩
  · simp only [set?, List.getElem?_eq_getElem hindex, hbit, Option.bind_eq_bind, Option.bind_some,
      Option.pure_def]
  · by_cases hsame : i / 8 = j / 8
    · -- the states of one byte are told apart by their places in it
      have hplace : decide (i = j) = decide (i % 8 = j % 8) := decide_eq_decide.mpr (by omega)
      have hnew : (packed.set (i / 8) (packed[i / 8] ||| bit))[j / 8]? =
          some (packed[i / 8] ||| bit) := by
        rw [← hsame, List.getElem?_set_self hindex]
      have hold : packed[j / 8]? = some packed[i / 8] := by
        rw [← hsame, List.getElem?_eq_getElem hindex]
      rw [stateAt_of_getElem? hnew, stateAt_of_getElem? hold, testBit_or_bit hvalue, hplace]
    · have hother : i ≠ j := fun heq => hsame (by rw [heq])
      rw [decide_eq_false hother, Bool.false_or, stateAt, stateAt, List.getD_eq_getElem?_getD,
        List.getElem?_set_ne hsame, ← List.getD_eq_getElem?_getD]

theorem foldlM_set?_of_lt {indices : List Nat} (h : ∀ i ∈ indices, i < 8 * packed.length) :
    ∃ after, indices.foldlM set? packed = some after ∧ after.length = packed.length ∧
      ∀ j, stateAt after j = (decide (j ∈ indices) || stateAt packed j) := by
  -- the induction is over every byte string, as each state is set in what the ones before it left
  induction indices generalizing packed with
  | nil => exact ⟨packed, rfl, rfl, fun j => by simp⟩
  | cons i indices ih =>
    obtain ⟨middle, hset, hlength, hmiddle⟩ := exists_set? (h i (List.mem_cons_self ..))
    have hrest : ∀ k ∈ indices, k < 8 * middle.length := by
      intro k hk
      rw [hlength]
      exact h k (List.mem_cons_of_mem i hk)
    obtain ⟨after, hfold, hlength', hafter⟩ := ih hrest
    refine ⟨after, ?_, hlength'.trans hlength, fun j => ?_⟩
    · rw [List.foldlM_cons, hset]
      exact hfold
    · rw [hafter, hmiddle, ← Bool.or_assoc]
      congr 1
      simp [Bool.or_comm, eq_comm]

/-- Packing sets, one after the other, the states that are to be set, and there is a byte and a bit
for each of them. -/
theorem foldlM_set? (states : List Bool) :
    (places states).foldlM set? (List.replicate (byteCount states.length) 0) =
      some (pack states) := by
  have hplaces : ∀ i ∈ places states,
      i < 8 * (List.replicate (byteCount states.length) (0 : UInt8)).length := by
    intro i hi
    have hlt : i < states.length := List.mem_range.mp (List.mem_filter.mp hi).1
    rw [List.length_replicate]
    exact Nat.lt_of_lt_of_le hlt (byteCount_le_iff.mp (Nat.le_refl _))
  obtain ⟨after, hfold, hlength, hafter⟩ := foldlM_set?_of_lt hplaces
  rw [hfold, Option.some.injEq]
  apply eq_of_stateAt
  · rw [hlength, List.length_replicate, length_pack]
  · intro j _
    rw [hafter, stateAt_replicate_zero, Bool.or_false, stateAt_pack, Bool.eq_iff_iff,
      decide_eq_true_iff, mem_places]

/-! ### Unpacking by looking states up -/

theorem get?_of_lt (h : i < 8 * packed.length) : get? packed i = some (stateAt packed i) := by
  have hindex : i / 8 < packed.length := by omega
  obtain ⟨bit, hbit, hvalue⟩ := exists_bit? (Nat.mod_lt i (by decide : 0 < 8))
  have hbyte : packed[i / 8]? = some packed[i / 8] := List.getElem?_eq_getElem hindex
  simp only [get?, hbyte, hbit, Option.bind_eq_bind, Option.bind_some, Option.pure_def,
    and_bit_ne_zero hvalue, stateAt_of_getElem? hbyte]

theorem get?_of_le (h : 8 * packed.length ≤ i) : get? packed i = none := by
  rw [get?, List.getElem?_eq_none (by omega)]
  rfl

/-- Unpacking looks up one state after the other, and it is refused just when there is no byte for
one of them. -/
theorem mapM_get? (packed : Bytes) (count : Nat) :
    (List.range count).mapM (get? packed) = unpack? packed count := by
  -- the induction is from the end, where the state stands whose byte may be missing
  induction count with
  | zero => simp [unpack?, byteCount]
  | succ count ih =>
    rw [List.range_succ, List.mapM_append, ih, unpack?, unpack?]
    by_cases hlong : count < 8 * packed.length
    · have hcount : ¬ packed.length < byteCount count :=
        Nat.not_lt.mpr (byteCount_le_iff.mpr (Nat.le_of_lt hlong))
      have hsucc : ¬ packed.length < byteCount (count + 1) :=
        Nat.not_lt.mpr (byteCount_le_iff.mpr hlong)
      rw [if_neg hcount, if_neg hsucc, List.range_succ, List.map_append]
      simp [get?_of_lt hlong]
    · have hsucc : packed.length < byteCount (count + 1) := by
        refine Nat.lt_of_not_le fun hle => hlong ?_
        exact byteCount_le_iff.mp hle
      rw [if_pos hsucc]
      simp [get?_of_le (Nat.le_of_not_lt hlong)]

/-! ### There and back -/

theorem unpack?_pack_append (states : List Bool) (rest : Bytes) :
    unpack? (pack states ++ rest) states.length = some states := by
  have hlong : byteCount states.length ≤ (pack states ++ rest).length := by
    rw [List.length_append, length_pack]
    exact Nat.le_add_right _ _
  rw [unpack?, if_neg (Nat.not_lt.mpr hlong), Option.some.injEq]
  apply List.ext_getElem (by simp)
  intro i hi hi'
  have hpacked : i < 8 * (pack states).length := by
    rw [length_pack]
    exact Nat.lt_of_lt_of_le hi' (byteCount_le_iff.mp (Nat.le_refl _))
  rw [List.getElem_map, List.getElem_range, stateAt_append rest hpacked, stateAt_pack,
    List.getD_eq_getElem _ _ hi']

theorem unpack?_eq_none_iff : unpack? packed count = none ↔ packed.length < byteCount count := by
  rw [unpack?]
  split <;> simp_all

theorem length_cleared (h : byteCount count ≤ packed.length) :
    (cleared packed count).length = byteCount count := by
  rw [cleared, List.length_modify, List.length_take_of_le h]

theorem stateAt_cleared (hlong : byteCount count ≤ packed.length) (h : i < 8 * byteCount count) :
    stateAt (cleared packed count) i = (decide (i < count) && stateAt packed i) := by
  have hindex : i / 8 < byteCount count := by omega
  have hbyte : packed[i / 8]? = some packed[i / 8] :=
    List.getElem?_eq_getElem (Nat.lt_of_lt_of_le hindex hlong)
  have htake : (packed.take (byteCount count))[i / 8]? = some packed[i / 8] := by
    rw [List.getElem?_take_of_lt hindex, hbyte]
  rw [stateAt_of_getElem? hbyte]
  by_cases hlast : count / 8 = i / 8
  · -- the byte that holds the last states, if they do not fill it
    have hmasked : (cleared packed count)[i / 8]? =
        some (packed[i / 8] &&& UInt8.ofNat (2 ^ (count % 8) - 1)) := by
      rw [cleared, List.getElem?_modify, htake, Option.map_eq_map, Option.map_some, if_pos hlast]
    have hplace : decide (i % 8 < count % 8) = decide (i < count) :=
      decide_eq_decide.mpr (by omega)
    rw [stateAt_of_getElem? hmasked, testBit_and_mask (Nat.mod_lt _ (by decide)), hplace]
  · -- every byte before that one is in use as a whole
    have hkept : (cleared packed count)[i / 8]? = some packed[i / 8] := by
      rw [cleared, List.getElem?_modify, htake, Option.map_eq_map, Option.map_some, if_neg hlast]
    have hused : i < count := by
      rw [byteCount] at hindex
      omega
    rw [stateAt_of_getElem? hkept, decide_eq_true hused, Bool.true_and]

theorem pack_of_unpack? (h : unpack? packed count = some states) :
    pack states = cleared packed count := by
  have hlong : byteCount count ≤ packed.length := by
    refine Nat.le_of_not_lt fun hshort => ?_
    rw [unpack?_eq_none_iff.mpr hshort] at h
    cases h
  rw [unpack?, if_neg (Nat.not_lt.mpr hlong), Option.some.injEq] at h
  subst h
  have hlength : (pack ((List.range count).map (stateAt packed))).length = byteCount count := by
    rw [length_pack, List.length_map, List.length_range]
  apply eq_of_stateAt
  · rw [hlength, length_cleared hlong]
  · intro i hi
    rw [hlength] at hi
    rw [stateAt_cleared hlong hi, stateAt_pack]
    by_cases hused : i < count
    · rw [List.getD_eq_getElem _ _ (by simpa using hused)]
      simp [hused]
    · rw [List.getD_eq_default _ _ (by simpa using hused)]
      simp [hused]

/-- Packing and unpacking undo each other, up to the unused high bits of the last byte, and both
are what comes of going through the states one by one with every index and every place of a bit
checked. -/
theorem packing_exact :
    (∀ states : List Bool,
      (pack states).length = byteCount states.length ∧
      (∀ i, states.length ≤ i → stateAt (pack states) i = false) ∧
      (∀ rest, unpack? (pack states ++ rest) states.length = some states) ∧
      (places states).foldlM set? (List.replicate (byteCount states.length) 0) =
        some (pack states)) ∧
    ∀ (packed : Bytes) (count : Nat),
      byteCount count = count ⌈/⌉ 8 ∧
      (unpack? packed count = none ↔ packed.length < count ⌈/⌉ 8) ∧
      (∀ states, unpack? packed count = some states → pack states = cleared packed count) ∧
      (List.range count).mapM (get? packed) = unpack? packed count := by
  refine ⟨fun states => ⟨length_pack states, fun i hi => ?_, unpack?_pack_append states,
    foldlM_set? states⟩, fun packed count => ⟨byteCount_eq_ceilDiv count, ?_, ?_,
    mapM_get? packed count⟩⟩
  · rw [stateAt_pack, List.getD_eq_default _ _ hi]
  · rw [← byteCount_eq_ceilDiv]
    exact unpack?_eq_none_iff
  · exact fun states => pack_of_unpack?

/-- Twelve states take two bytes, of which the second one has four bits to spare. -/
example : pack [true, false, true, true, false, false, true, true, true, true, false, true] =
    cleared [0xCD, 0xFB, 0x55] 12 := by decide

end ModbusMaster.Bits
