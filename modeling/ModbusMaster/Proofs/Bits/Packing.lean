import Mathlib.Data.List.GetD
import Mathlib.Data.Nat.Bitwise
import Mathlib.Data.Nat.Digits.Lemmas
import ModbusMaster.Bits

/-!
The states in a packed byte string. A number has the digits that it was made from
(`testBit_number`), so packing puts every state where it is looked up (`stateAt_pack`). The bytes
are the digits of that number to the base 256, the lowest first (`pack_eq_digitsAppend`).
-/

namespace ModbusMaster.Bits

theorem number_lt (bits : List Bool) : number bits < 2 ^ bits.length := by
  induction bits with
  | nil => decide
  | cons b bits ih =>
    have hb : b.toNat ≤ 1 := Bool.toNat_le b
    rw [number, List.length_cons, Nat.pow_succ]
    omega

theorem testBit_number (bits : List Bool) (i : Nat) :
    (number bits).testBit i = bits.getD i false := by
  induction bits generalizing i with
  | nil => simp [number]
  | cons b bits ih =>
    have hb : b.toNat ≤ 1 := Bool.toNat_le b
    cases i with
    | zero =>
      rw [number, Nat.testBit_zero, Nat.add_mul_mod_self_left]
      cases b <;> rfl
    | succ i =>
      have hhalf : number (b :: bits) / 2 = number bits := by
        rw [number]
        omega
      rw [← Nat.testBit_div_two, hhalf, ih, List.getD_cons_succ]

/-- A bit string is read off its number again. -/
theorem map_testBit_number (bits : List Bool) :
    (List.range bits.length).map (number bits).testBit = bits := by
  apply List.ext_getElem (by simp)
  intro i hi hi'
  rw [List.getElem_map, List.getElem_range, testBit_number, List.getD_eq_getElem _ _ hi']

/-- A packed state is found at its place; beyond the last one nothing is set. -/
theorem stateAt_pack (states : List Bool) (i : Nat) :
    stateAt (pack states) i = states.getD i false := by
  have hbyte : ((pack states).getD (i / 8) 0).toNat =
      number ((states.drop (i / 8 * 8)).take 8) := by
    by_cases h : i / 8 < (pack states).length
    · have hlt : number ((states.drop (i / 8 * 8)).take 8) < 256 := by
        refine Nat.lt_of_lt_of_le (number_lt _) ?_
        exact Nat.pow_le_pow_right (by decide) (List.length_take_le _ _)
      rw [List.getD_eq_getElem _ _ h]
      simp only [pack, chunks, List.getElem_map, List.getElem_range]
      exact UInt8.toNat_ofNat_of_lt' hlt
    · have hlength : states.length ≤ i / 8 * 8 := by
        rw [length_pack, byteCount] at h
        omega
      rw [List.getD_eq_default _ _ (by omega), List.drop_eq_nil_of_le hlength]
      rfl
  have hlow : i % 8 < 8 := Nat.mod_lt i (by decide)
  rw [stateAt, hbyte, testBit_number, List.getD_eq_getElem?_getD, List.getElem?_take_of_lt hlow,
    List.getElem?_drop, List.getD_eq_getElem?_getD, Nat.div_add_mod']

/-! ### Bytes as digits -/

theorem number_append (low high : List Bool) :
    number (low ++ high) = number low + 2 ^ low.length * number high := by
  induction low with
  | nil => simp [number]
  | cons b low ih =>
    rw [List.cons_append, number, number, ih, List.length_cons, Nat.pow_succ', Nat.mul_add,
      Nat.mul_assoc, Nat.add_assoc]

theorem number_take_drop (states : List Bool) :
    number (states.take 8) + 256 * number (states.drop 8) = number states := by
  have happend := number_append (states.take 8) (states.drop 8)
  rw [List.take_append_drop] at happend
  by_cases hlong : 8 ≤ states.length
  · rw [List.length_take_of_le hlong] at happend
    exact happend.symm
  · -- there is no second byte
    have hrest : states.drop 8 = [] := List.drop_eq_nil_of_le (by omega)
    rw [happend, hrest]
    rfl

/-- Packing takes eight states at a time. -/
theorem pack_of_ne_nil {states : List Bool} (h : states ≠ []) :
    pack states = UInt8.ofNat (number (states.take 8)) :: pack (states.drop 8) := by
  have hpos : 0 < states.length := List.length_pos_iff.mpr h
  have hcount : (states.length + 8 - 1) / 8 = (states.length - 8 + 8 - 1) / 8 + 1 := by omega
  simp only [pack, chunks, hcount, List.length_drop, List.range_succ_eq_map, List.map_cons,
    List.map_map]
  simp [Function.comp_def, Nat.add_mul, Nat.add_comm]

theorem ofDigits_pack (states : List Bool) :
    Nat.ofDigits 256 ((pack states).map UInt8.toNat) = number states := by
  -- the induction is on the number of states; eight of them make the first digit
  induction hlength : states.length using Nat.strong_induction_on generalizing states with
  | _ count ih =>
    by_cases hnil : states = []
    · rw [hnil]
      rfl
    · have hpos : 0 < states.length := List.length_pos_iff.mpr hnil
      have hless : (states.drop 8).length < count := by
        rw [List.length_drop]
        omega
      have hbyte : number (states.take 8) < 256 := Nat.lt_of_lt_of_le (number_lt _)
        (Nat.pow_le_pow_right (by decide) (List.length_take_le 8 states))
      rw [pack_of_ne_nil hnil, List.map_cons, Nat.ofDigits_cons, ih _ hless _ rfl,
        UInt8.toNat_ofNat_of_lt' hbyte]
      exact number_take_drop states

/-- The packed states are the digits of their number to the base 256, the lowest first. -/
theorem pack_eq_digitsAppend (states : List Bool) :
    pack states =
      (Nat.digitsAppend 256 (byteCount states.length) (number states)).map UInt8.ofNat := by
  have hlength : ((pack states).map UInt8.toNat).length = byteCount states.length := by
    rw [List.length_map, length_pack]
  have hdigits : ∀ digit ∈ (pack states).map UInt8.toNat, digit < 256 := by
    intro digit hdigit
    obtain ⟨byte, -, rfl⟩ := List.mem_map.mp hdigit
    exact byte.toNat_lt
  have hinverse := Nat.setInvOn_digitsAppend_ofDigits (by decide : 1 < 256)
    (byteCount states.length)
  rw [← ofDigits_pack, hinverse.1 ⟨hlength, hdigits⟩]
  simp [Function.comp_def]

end ModbusMaster.Bits
